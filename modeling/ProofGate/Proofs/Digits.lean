import ProofGate.Proofs.Statement.Reading
import Mathlib.Algebra.BigOperators.Group.Finset.Basic

/-!
# Digits put together

A longer number is put together from digits that stand eight bytes apart: each is shifted to its
place and its bits are set. No two digits share a bit, so setting bits is adding up, and the number
is the one that the bytes of the digits write one behind the other. It tells its digits apart from
all others, and the bytes between them do not count.
-/

namespace ProofGate.Digits

/-! ## Digits added up -/

/-- The sum of the left padded digits of `count` elements, each at its place. -/
def sum (data : Bytes) (offset count : ℕ) : ℕ :=
  ∑ i ∈ Finset.range count, (data.cut (offset + 8 * i) 4).natBE * 2 ^ (32 * (count - 1 - i))

theorem sum_succ (data : Bytes) (offset count : ℕ) :
    sum data offset (count + 1) =
      (data.cut offset 4).natBE * 2 ^ (32 * count) + sum data (offset + 8) count := by
  have behind (i : ℕ) : (data.cut (offset + 8 * (i + 1)) 4).natBE *
        2 ^ (32 * (count + 1 - 1 - (i + 1))) =
      (data.cut (offset + 8 + 8 * i) 4).natBE * 2 ^ (32 * (count - 1 - i)) := by
    congr 2
    · congr 1
      omega
    · congr 1
      omega
  rw [sum, Finset.sum_range_succ', Finset.sum_congr rfl fun i _ => behind i]
  exact Nat.add_comm _ _

/-- Digits spelled out one behind the other count their sum. -/
theorem natBE_spelled {data : Bytes} {offset count : ℕ}
    (h : offset + 8 * count ≤ data.length + 4) :
    (spelled data offset count).natBE = sum data offset count := by
  induction count generalizing offset with
  | zero => rfl
  | succ count ih =>
    have width : 256 ^ (spelled data (offset + 8) count).length = 2 ^ (32 * count) := by
      rw [length_spelled (by omega), show (256 : ℕ) = 2 ^ 8 by rfl, ← pow_mul]
      congr 1
      omega
    rw [spelled_succ, Bytes.natBE_append, width, ih (by omega), sum_succ]

/-! ## Single digits -/

/-- The number whose four bytes are those of another one in the opposite order. -/
def swapped (n : ℕ) : ℕ :=
  Bytes.natBE (Bytes.ofNatBE 4 n).reverse

theorem bytesAt_eq_ok_iff {data : Bytes} {offset : ℤ} {bs : Bytes} :
    bytesAt data offset = .ok bs ↔
      (0 ≤ offset ∧ offset + 4 ≤ data.length) ∧ data.cut offset.toNat 4 = bs := by
  unfold bytesAt
  split
  · next inside => simp [inside]
  · next outside => simp [outside]

theorem length_of_bytesAt {data : Bytes} {offset : ℤ} {bs : Bytes}
    (h : bytesAt data offset = .ok bs) : bs.length = 4 := by
  obtain ⟨inside, rfl⟩ := bytesAt_eq_ok_iff.mp h
  exact Bytes.length_cut (by omega)

theorem lt_of_leftPadded {data : Bytes} {offset : ℤ} {d : ℕ} (h : leftPadded data offset = .ok d) :
    d < 2 ^ 32 := by
  obtain ⟨bs, read, rfl⟩ := map_eq_ok.mp h
  have small := Bytes.natBE_lt bs
  rwa [length_of_bytesAt read] at small

theorem inside_of_leftPadded {data : Bytes} {offset : ℤ} {d : ℕ}
    (h : leftPadded data offset = .ok d) : 0 ≤ offset ∧ offset + 4 ≤ data.length := by
  obtain ⟨bs, read, _⟩ := map_eq_ok.mp h
  exact (bytesAt_eq_ok_iff.mp read).1

theorem kind_of_leftPadded {data : Bytes} {offset : ℤ} {e : Failure}
    (h : leftPadded data offset = .error e) : e.kind = .malformedBundle := by
  have outside := map_eq_error.mp h
  unfold bytesAt at outside
  split at outside
  · cases outside
  · cases outside
    rfl

/-- The two readings of a digit are each other's in the opposite order of bytes. -/
theorem leftPadded_eq_swapped (data : Bytes) (offset : ℤ) :
    leftPadded data offset = (direct data offset).map swapped := by
  unfold leftPadded direct
  cases read : bytesAt data offset with
  | error e => rfl
  | ok bs =>
    have back : swapped bs.natLE = bs.natBE := by
      have bytes := Bytes.ofNatLE_natLE bs
      rw [length_of_bytesAt read] at bytes
      rw [swapped, Bytes.ofNatBE, List.reverse_reverse, bytes]
    exact congrArg Except.ok back.symm

/-! ## Digits in their places -/

/-- The bits of digits, each digit shifted over all behind it. -/
def placed (ds : List ℕ) : ℕ :=
  (List.range ds.length).foldl (fun v i => v ||| ds.getD i 0 <<< (32 * (ds.length - 1 - i))) 0

theorem foldl_or (f : ℕ → ℕ) (is : List ℕ) (v : ℕ) :
    is.foldl (fun v i => v ||| f i) v = v ||| is.foldl (fun v i => v ||| f i) 0 := by
  induction is generalizing v with
  | nil => simp
  | cons i is ih => rw [List.foldl_cons, List.foldl_cons, ih, ih (0 ||| f i), Nat.zero_or, Nat.or_assoc]

theorem placed_cons (d : ℕ) (ds : List ℕ) :
    placed (d :: ds) = d <<< (32 * ds.length) ||| placed ds := by
  have behind (i : ℕ) : (d :: ds).getD (i + 1) 0 <<< (32 * ((d :: ds).length - 1 - (i + 1))) =
      ds.getD i 0 <<< (32 * (ds.length - 1 - i)) := by
    rw [List.getD_cons_succ, List.length_cons]
    congr 2
    omega
  have first : (0 : ℕ) ||| (d :: ds).getD 0 0 <<< (32 * ((d :: ds).length - 1 - 0)) =
      d <<< (32 * ds.length) := by
    rw [Nat.zero_or]
    rfl
  rw [placed, List.length_cons, List.range_succ_eq_map, List.foldl_cons, List.foldl_map, foldl_or]
  rw [← List.length_cons (a := d), first]
  simp only [behind]
  rfl

/-- A digit over those behind it, whose bits are all below its own. -/
theorem shift_or {low k : ℕ} (small : low < 2 ^ k) (d : ℕ) : d <<< k ||| low = d * 2 ^ k + low := by
  rw [← Nat.shiftLeft_add_eq_or_of_lt small, Nat.shiftLeft_eq]

theorem placed_lt {ds : List ℕ} (small : ∀ d ∈ ds, d < 2 ^ 32) : placed ds < 2 ^ (32 * ds.length) := by
  induction ds with
  | nil => decide
  | cons d ds ih =>
    rw [List.forall_mem_cons] at small
    have low := ih small.2
    have whole : 2 ^ (32 * (d :: ds).length) = 2 ^ 32 * 2 ^ (32 * ds.length) := by
      rw [← pow_add, List.length_cons]
      congr 1
      omega
    rw [placed_cons, shift_or low, whole]
    calc d * 2 ^ (32 * ds.length) + placed ds
        < (d + 1) * 2 ^ (32 * ds.length) := by
          rw [Nat.succ_mul d]
          exact Nat.add_lt_add_left low _
      _ ≤ 2 ^ 32 * 2 ^ (32 * ds.length) := Nat.mul_le_mul_right _ small.1

/-- **Setting bits is adding up**, since no two digits share a bit. -/
theorem placed_eq_sum {ds : List ℕ} (small : ∀ d ∈ ds, d < 2 ^ 32) :
    placed ds = ∑ i ∈ Finset.range ds.length, ds.getD i 0 * 2 ^ (32 * (ds.length - 1 - i)) := by
  induction ds with
  | nil => rfl
  | cons d ds ih =>
    rw [List.forall_mem_cons] at small
    have behind (i : ℕ) : (d :: ds).getD (i + 1) 0 * 2 ^ (32 * (ds.length + 1 - 1 - (i + 1))) =
        ds.getD i 0 * 2 ^ (32 * (ds.length - 1 - i)) := by
      rw [List.getD_cons_succ]
      congr 2
      omega
    rw [placed_cons, shift_or (placed_lt small.2), ih small.2, List.length_cons,
      Finset.sum_range_succ', Finset.sum_congr rfl fun i _ => behind i]
    exact Nat.add_comm _ _

/-- As many digits in the same places are the same digits. -/
theorem placed_inj {ds ds' : List ℕ} (small : ∀ d ∈ ds, d < 2 ^ 32) (small' : ∀ d ∈ ds', d < 2 ^ 32)
    (count : ds.length = ds'.length) (same : placed ds = placed ds') : ds = ds' := by
  induction ds generalizing ds' with
  | nil => exact (List.length_eq_zero_iff.mp count.symm).symm
  | cons d ds ih =>
    cases ds' with
    | nil => cases count
    | cons d' ds' =>
      rw [List.forall_mem_cons] at small small'
      have count : ds.length = ds'.length := Nat.succ_inj.mp count
      have low := placed_lt small.2
      have low' := placed_lt small'.2
      rw [placed_cons, placed_cons, ← count] at same
      rw [← count] at low'
      rw [shift_or low, shift_or low'] at same
      have behind := congrArg (· % 2 ^ (32 * ds.length)) same
      simp only [Nat.mul_add_mod_self_right, Nat.mod_eq_of_lt low, Nat.mod_eq_of_lt low'] at behind
      rw [behind] at same
      have front : d = d' :=
        Nat.eq_of_mul_eq_mul_right (Nat.two_pow_pos _) (Nat.add_right_cancel same)
      rw [front, ih small.2 small'.2 count behind]

/-! ## Digits that were read -/

/-- Digits that are read one after the other, eight bytes apart. -/
def Read (data : Bytes) (offset : ℤ) (ds : List ℕ) : Prop :=
  ∀ (i : ℕ) (d : ℕ), ds[i]? = some d → leftPadded data (offset + 8 * i) = .ok d

theorem read_cons_iff {data : Bytes} {offset : ℤ} {d : ℕ} {ds : List ℕ} :
    Read data offset (d :: ds) ↔ leftPadded data offset = .ok d ∧ Read data (offset + 8) ds := by
  have next (i : ℕ) : offset + 8 + 8 * (i : ℤ) = offset + 8 * ((i + 1 : ℕ) : ℤ) := by omega
  have here : offset + 8 * ((0 : ℕ) : ℤ) = offset := by omega
  constructor
  · intro read
    refine ⟨here ▸ read 0 d rfl, fun i d' there => ?_⟩
    rw [next]
    exact read (i + 1) d' there
  · rintro ⟨first, rest⟩ i d' there
    cases i with
    | zero =>
      cases there
      rw [here, first]
    | succ i =>
      rw [← next]
      exact rest i d' there

theorem Read.small {data : Bytes} {offset : ℤ} {ds : List ℕ} (read : Read data offset ds) :
    ∀ d ∈ ds, d < 2 ^ 32 := by
  intro d hd
  obtain ⟨i, there⟩ := List.mem_iff_getElem?.mp hd
  exact lt_of_leftPadded (read i d there)

/-- Digits are read from any bytes that have the same ones at their places. -/
theorem Read.congr {data data' : Bytes} {offset : ℤ} {ds : List ℕ} (read : Read data offset ds)
    (same : ∀ i < ds.length, ∀ k < 4,
      data'[offset.toNat + 8 * i + k]? = data[offset.toNat + 8 * i + k]?) :
    Read data' offset ds := by
  intro i d there
  have inside := (List.getElem?_eq_some_iff.mp there).1
  obtain ⟨bs, found, rfl⟩ := map_eq_ok.mp (read i d there)
  obtain ⟨⟨low, high⟩, rfl⟩ := bytesAt_eq_ok_iff.mp found
  have start : 0 ≤ offset := by
    have zeroth : ∃ d, ds[0]? = some d := ⟨_, List.getElem?_eq_getElem (by omega)⟩
    obtain ⟨d, first⟩ := zeroth
    have := (inside_of_leftPadded (read 0 d first)).1
    omega
  have place : (offset + 8 * (i : ℤ)).toNat = offset.toNat + 8 * i := by omega
  have long : offset.toNat + 8 * i + 3 < data'.length := by
    have last := same i inside 3 (by decide)
    rw [List.getElem?_eq_getElem (l := data) (by omega)] at last
    exact (List.getElem?_eq_some_iff.mp last).1
  have cut : data'.cut (offset + 8 * (i : ℤ)).toNat 4 = data.cut (offset + 8 * (i : ℤ)).toNat 4 := by
    refine List.ext_getElem? fun k => ?_
    rw [Bytes.getElem?_cut, Bytes.getElem?_cut, place]
    split
    · next few => exact same i inside k few
    · rfl
  rw [leftPadded, bytesAt_eq_ok_iff.mpr ⟨⟨low, by omega⟩, cut⟩, map_ok]

/-- **One digit at a time.** What is put together is the digits that are read, in their places. -/
theorem assemble_eq_ok_iff {data : Bytes} {offset : ℤ} {n v : ℕ} :
    assemble data offset n = .ok v ↔
      ∃ ds : List ℕ, ds.length = n ∧ Read data offset ds ∧ v = placed ds := by
  induction n generalizing offset v with
  | zero =>
    constructor
    · rintro ⟨⟩
      exact ⟨[], rfl, by rintro i d ⟨⟩, rfl⟩
    · rintro ⟨ds, none, _, rfl⟩
      rw [List.length_eq_zero_iff.mp none]
      rfl
  | succ n ih =>
    constructor
    · intro read
      obtain ⟨high, first, read⟩ := bind_eq_ok.mp read
      obtain ⟨low, rest, read⟩ := bind_eq_ok.mp read
      cases read
      obtain ⟨ds, rfl, behind, rfl⟩ := ih.mp rest
      exact ⟨high :: ds, rfl, read_cons_iff.mpr ⟨first, behind⟩, (placed_cons high ds).symm⟩
    · rintro ⟨ds, count, read, rfl⟩
      cases ds with
      | nil => cases count
      | cons d ds =>
        obtain ⟨first, behind⟩ := read_cons_iff.mp read
        obtain rfl : ds.length = n := Nat.succ_inj.mp count
        rw [assemble, first, ok_bind, ih.mpr ⟨ds, rfl, behind, rfl⟩, ok_bind, placed_cons]
        rfl

/-- Digits are put together exactly if the first and the last are inside, or there are none. -/
theorem assemble_isOk_iff {data : Bytes} {offset : ℤ} {n : ℕ} :
    (∃ v, assemble data offset n = .ok v) ↔
      n = 0 ∨ 0 ≤ offset ∧ offset + 8 * (n - 1) + 4 ≤ data.length := by
  constructor
  · rintro ⟨v, read⟩
    obtain ⟨ds, rfl, digits, _⟩ := assemble_eq_ok_iff.mp read
    by_cases none : ds.length = 0
    · exact Or.inl none
    · have first := inside_of_leftPadded
        (digits 0 _ (List.getElem?_eq_getElem (by omega : 0 < ds.length)))
      have last := inside_of_leftPadded
        (digits (ds.length - 1) _ (List.getElem?_eq_getElem (by omega)))
      exact Or.inr ⟨by omega, by omega⟩
  · rintro (rfl | ⟨low, high⟩)
    · exact ⟨0, rfl⟩
    · have place : ((offset.toNat : ℕ) : ℤ) = offset := Int.toNat_of_nonneg low
      have read : assemble data offset.toNat n = .ok (spelled data offset.toNat n).natBE :=
        assemble_inside (by omega)
      rw [place] at read
      exact ⟨_, read⟩

theorem kind_of_assemble {data : Bytes} {offset : ℤ} {n : ℕ} {e : Failure}
    (h : assemble data offset n = .error e) : e.kind = .malformedBundle := by
  induction n generalizing offset with
  | zero => cases h
  | succ n ih =>
    rcases bind_eq_error.mp h with first | ⟨high, _, h⟩
    · exact kind_of_leftPadded first
    · rcases bind_eq_error.mp h with rest | ⟨low, _, h⟩
      · exact ih rest
      · cases h

/-- What is put together are the bytes of the digits, one digit behind the other. -/
theorem natBE_of_assemble {data : Bytes} {offset : ℤ} {n v : ℕ}
    (h : assemble data offset n = .ok v) : v = (spelled data offset.toNat n).natBE := by
  rcases assemble_isOk_iff.mp ⟨v, h⟩ with rfl | ⟨low, high⟩
  · cases h
    rfl
  · have place : ((offset.toNat : ℕ) : ℤ) = offset := Int.toNat_of_nonneg low
    have read : assemble data offset.toNat n = .ok (spelled data offset.toNat n).natBE :=
      assemble_inside (by omega)
    rw [place, h] at read
    exact Except.ok.inj read

/-- **Positional.** Digits are put together exactly if there are none, or the first and the last are
inside the bytes. The number then sets the bits of each digit at its place, and that is the sum of
the digits at their places, and what their bytes write one behind the other; it has as many bits as
they have. Other bytes that agree at the digits give the same number, and the same number is put
together from no other digits. Each digit is the direct one at its place with its bytes swapped. -/
theorem assemble_positional (data : Bytes) (offset : ℤ) (n : ℕ) :
    ((∃ v, assemble data offset n = .ok v) ↔
      n = 0 ∨ 0 ≤ offset ∧ offset + 8 * (n - 1) + 4 ≤ data.length) ∧
    (∀ e, assemble data offset n = .error e → e.kind = .malformedBundle) ∧
    (∀ i : ℕ, leftPadded data (offset + 8 * i) = (direct data (offset + 8 * i)).map swapped) ∧
    ∀ v, assemble data offset n = .ok v →
      ∃ ds : List ℕ, ds.length = n ∧ Read data offset ds ∧ v = placed ds ∧
        v = ∑ i ∈ Finset.range n, ds.getD i 0 * 2 ^ (32 * (n - 1 - i)) ∧
        v = (spelled data offset.toNat n).natBE ∧ v < 2 ^ (32 * n) ∧
        (∀ data' : Bytes, (∀ i < n, ∀ k < 4,
            data'[offset.toNat + 8 * i + k]? = data[offset.toNat + 8 * i + k]?) →
          assemble data' offset n = .ok v) ∧
        ∀ (data' : Bytes) (offset' : ℤ) (ds' : List ℕ), ds'.length = n → Read data' offset' ds' →
          assemble data' offset' n = .ok v → ds' = ds := by
  refine ⟨assemble_isOk_iff, fun e => kind_of_assemble, fun i => leftPadded_eq_swapped _ _, ?_⟩
  intro v assembled
  obtain ⟨ds, rfl, read, rfl⟩ := assemble_eq_ok_iff.mp assembled
  refine ⟨ds, rfl, read, rfl, placed_eq_sum read.small, natBE_of_assemble assembled,
    placed_lt read.small, ?elsewhere, ?digits⟩
  case elsewhere =>
    intro data' same
    exact assemble_eq_ok_iff.mpr ⟨ds, rfl, read.congr same, rfl⟩
  case digits =>
    intro data' offset' ds' count read' assembled'
    have value := assemble_eq_ok_iff.mpr ⟨ds', count, read', rfl⟩
    rw [assembled', Except.ok.injEq] at value
    exact (placed_inj read.small read'.small count.symm value).symm

/-- Two digits behind one byte, with four other bytes between them. -/
def interleaved : Bytes :=
  [9, 1, 2, 3, 4, 9, 9, 9, 9, 0xA0, 0xB0, 0xC0, 0xD0]

/-- The two digits make one number, which no byte around them changes; a third digit and one in
front of the bytes are outside. -/
theorem assemble_positional_sample :
    assemble interleaved 1 2 = .ok 0x01020304A0B0C0D0 ∧ 0x01020304A0B0C0D0 < 2 ^ (32 * 2) ∧
    assemble ((interleaved.set 0 7).set 6 7) 1 2 = .ok 0x01020304A0B0C0D0 ∧
    leftPadded interleaved (1 + 8 * 1) = (direct interleaved (1 + 8 * 1)).map swapped ∧
    (∃ e, assemble interleaved 1 3 = .error e ∧ e.kind = .malformedBundle) ∧
    ∃ e, assemble interleaved (-1) 1 = .error e ∧ e.kind = .malformedBundle := by
  have read : assemble interleaved 1 2 = .ok 0x01020304A0B0C0D0 := rfl
  obtain ⟨_, _, swaps, number⟩ := assemble_positional interleaved 1 2
  obtain ⟨_, _, _, _, _, _, bound, elsewhere, _⟩ := number _ read
  refine ⟨read, bound, elsewhere _ (by decide), swaps 1, ⟨_, rfl, ?_⟩, ⟨_, rfl, ?_⟩⟩
  · exact (assemble_positional interleaved 1 3).2.1 _ rfl
  · exact (assemble_positional interleaved (-1) 1).2.1 _ rfl

end ProofGate.Digits
