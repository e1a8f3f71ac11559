import ProofGate.Bytes
import Mathlib.Tactic.Ring
import Mathlib.Tactic.NormNum

/-!
# Numbers in bytes

Reading and writing a number in either order of its bytes are inverse to each other at a width:
a number keeps its low bytes, and byte strings of one length are told apart by what they count.
Below that stand the laws of cutting: pieces of one width are read back from their join, and
overwriting one stretch of bytes leaves every other as it was.
-/

namespace ProofGate

namespace Bytes

/-! ## The first byte weighing least -/

@[simp] theorem natLE_nil : natLE [] = 0 := rfl

@[simp] theorem natLE_cons (b : UInt8) (bs : Bytes) :
    natLE (b :: bs) = b.toNat + 256 * natLE bs := rfl

@[simp] theorem length_ofNatLE (width n : ℕ) : (ofNatLE width n).length = width := by
  induction width generalizing n with
  | zero => rfl
  | succ width ih => rw [ofNatLE, List.length_cons, ih]

theorem natLE_lt (bs : Bytes) : natLE bs < 256 ^ bs.length := by
  induction bs with
  | nil => simp
  | cons b bs ih =>
    have hb : b.toNat < 256 := b.toNat_lt
    rw [natLE_cons, List.length_cons, pow_succ]
    omega

theorem natLE_append (xs ys : Bytes) :
    natLE (xs ++ ys) = natLE xs + 256 ^ xs.length * natLE ys := by
  induction xs with
  | nil => simp
  | cons x xs ih =>
    rw [List.cons_append, natLE_cons, natLE_cons, ih, List.length_cons, pow_succ]
    ring

theorem natLE_ofNatLE (width n : ℕ) : natLE (ofNatLE width n) = n % 256 ^ width := by
  induction width generalizing n with
  | zero => simp [ofNatLE, Nat.mod_one]
  | succ width ih =>
    rw [ofNatLE, natLE_cons, ih, pow_succ', Nat.mod_mul, UInt8.toNat_ofNat']

theorem ofNatLE_natLE (bs : Bytes) : ofNatLE bs.length (natLE bs) = bs := by
  induction bs with
  | nil => rfl
  | cons b bs ih =>
    have hb : b.toNat < 256 := b.toNat_lt
    have low : UInt8.ofNat (b.toNat + 256 * natLE bs) = b := by
      apply UInt8.toNat_inj.mp
      rw [UInt8.toNat_ofNat']
      omega
    have high : (b.toNat + 256 * natLE bs) / 256 = natLE bs := by omega
    rw [List.length_cons, natLE_cons, ofNatLE, low, high, ih]

theorem ofNatLE_zero (width : ℕ) : ofNatLE width 0 = zeros width := by
  induction width with
  | zero => rfl
  | succ width ih =>
    rw [ofNatLE, Nat.zero_div, ih]
    rfl

/-- The low bytes stand in front of the high ones. -/
theorem ofNatLE_add (low high n : ℕ) :
    ofNatLE (low + high) n = ofNatLE low n ++ ofNatLE high (n / 256 ^ low) := by
  induction low generalizing n with
  | zero => simp [ofNatLE]
  | succ low ih =>
    rw [Nat.add_right_comm, ofNatLE, ih, ofNatLE, List.cons_append, Nat.div_div_eq_div_mul,
      pow_succ']

/-- A number that fits in fewer bytes leaves zeros above. -/
theorem ofNatLE_of_lt {low n : ℕ} (h : n < 256 ^ low) (high : ℕ) :
    ofNatLE (low + high) n = ofNatLE low n ++ zeros high := by
  rw [ofNatLE_add, Nat.div_eq_of_lt h, ofNatLE_zero]

/-! ## The first byte weighing most -/

@[simp] theorem length_ofNatBE (width n : ℕ) : (ofNatBE width n).length = width := by
  rw [ofNatBE, List.length_reverse, length_ofNatLE]

theorem natBE_lt (bs : Bytes) : natBE bs < 256 ^ bs.length := by
  have h := natLE_lt bs.reverse
  rwa [List.length_reverse] at h

theorem natBE_append (xs ys : Bytes) :
    natBE (xs ++ ys) = natBE xs * 256 ^ ys.length + natBE ys := by
  rw [natBE, List.reverse_append, natLE_append, List.length_reverse]
  show natBE ys + 256 ^ ys.length * natBE xs = _
  ring

theorem natBE_cons (b : UInt8) (bs : Bytes) :
    natBE (b :: bs) = b.toNat * 256 ^ bs.length + natBE bs :=
  natBE_append [b] bs

theorem natBE_ofNatBE (width n : ℕ) : natBE (ofNatBE width n) = n % 256 ^ width := by
  rw [natBE, ofNatBE, List.reverse_reverse, natLE_ofNatLE]

theorem ofNatBE_natBE (bs : Bytes) : ofNatBE bs.length (natBE bs) = bs := by
  rw [natBE, ofNatBE, ← List.length_reverse, ofNatLE_natLE, List.reverse_reverse]

theorem natBE_inj {xs ys : Bytes} (hlen : xs.length = ys.length) (h : natBE xs = natBE ys) :
    xs = ys := by
  rw [← ofNatBE_natBE xs, ← ofNatBE_natBE ys, hlen, h]

/-! ## Cuts -/

theorem length_cut {bs : Bytes} {start count : ℕ} (h : start + count ≤ bs.length) :
    (bs.cut start count).length = count := by
  rw [cut, List.length_take, List.length_drop]
  omega

@[simp] theorem length_zeros (n : ℕ) : (zeros n).length = n := List.length_replicate

theorem zeros_add (m n : ℕ) : zeros (m + n) = zeros m ++ zeros n :=
  List.replicate_append_replicate.symm

theorem cut_zero (bs : Bytes) (count : ℕ) : bs.cut 0 count = bs.take count := rfl

/-- A cut inside a cut is a cut. -/
theorem cut_cut {bs : Bytes} {start width offset count : ℕ} (h : offset + count ≤ width) :
    (bs.cut start width).cut offset count = bs.cut (start + offset) count := by
  rw [cut, cut, cut, List.drop_take, List.take_take, List.drop_drop,
    Nat.min_eq_left (by omega)]

theorem cut_append_left {xs : Bytes} {start count : ℕ} (h : start + count ≤ xs.length)
    (ys : Bytes) : (xs ++ ys).cut start count = xs.cut start count := by
  rw [cut, cut, List.drop_append_of_le_length (by omega),
    List.take_append_of_le_length (by rw [List.length_drop]; omega)]

theorem cut_append_right (xs ys : Bytes) (start count : ℕ) :
    (xs ++ ys).cut (xs.length + start) count = ys.cut start count := by
  rw [cut, cut, List.drop_length_add_append]

/-- Two cuts in a row are one. -/
theorem cut_append_cut (bs : Bytes) (start first second : ℕ) :
    bs.cut start first ++ bs.cut (start + first) second = bs.cut start (first + second) := by
  rw [cut, cut, cut, ← List.drop_drop, List.take_add]

theorem getElem?_cut (bs : Bytes) (start count i : ℕ) :
    (bs.cut start count)[i]? = if i < count then bs[start + i]? else none := by
  rw [cut, List.getElem?_take, List.getElem?_drop]

/-- Bytes end in zeros from some place on exactly if each of these is one. -/
theorem take_append_zeros_eq_iff (bs : Bytes) (front : ℕ) :
    bs.take front ++ zeros (bs.length - front) = bs ↔ ∀ i, front ≤ i → bs.getD i 0 = 0 := by
  have split : bs.take front ++ zeros (bs.length - front) = bs ↔
      bs.drop front = zeros (bs.length - front) := by
    nth_rewrite 3 [← List.take_append_drop front bs]
    rw [List.append_cancel_left_eq, eq_comm]
  have size : (bs.drop front).length = bs.length - front := List.length_drop
  rw [split, zeros, ← size, List.eq_replicate_iff]
  constructor
  · rintro ⟨_, blank⟩ i hi
    obtain ⟨past, rfl⟩ := Nat.exists_eq_add_of_le hi
    rw [List.getD_eq_getElem?_getD, ← List.getElem?_drop]
    cases there : (bs.drop front)[past]? with
    | none => rfl
    | some b => exact blank b (List.mem_of_getElem? there)
  · intro blank
    refine ⟨rfl, fun b hb => ?_⟩
    obtain ⟨past, there⟩ := List.mem_iff_getElem?.mp hb
    have zero := blank (front + past) (Nat.le_add_right ..)
    rwa [List.getD_eq_getElem?_getD, ← List.getElem?_drop, there] at zero

/-! ## Pieces of one width -/

theorem length_flatten {width : ℕ} {pieces : List Bytes} (h : ∀ p ∈ pieces, p.length = width) :
    pieces.flatten.length = width * pieces.length := by
  induction pieces with
  | nil => rfl
  | cons p pieces ih =>
    rw [List.forall_mem_cons] at h
    rw [List.flatten_cons, List.length_append, h.1, ih h.2, List.length_cons, Nat.mul_succ]
    omega

/-- In a row of pieces each is found at its place. -/
theorem cut_flatten {width : ℕ} {pieces : List Bytes} (h : ∀ p ∈ pieces, p.length = width) {i : ℕ}
    {p : Bytes} (there : pieces[i]? = some p) : cut pieces.flatten (width * i) width = p := by
  obtain ⟨inside, rfl⟩ := List.getElem?_eq_some_iff.mp there
  have front : (pieces.take i).flatten.length = width * i := by
    rw [length_flatten fun p hp => h p (List.mem_of_mem_take hp), List.length_take,
      Nat.min_eq_left inside.le]
  have split : pieces.flatten =
      (pieces.take i).flatten ++ (pieces[i] ++ (pieces.drop (i + 1)).flatten) := by
    rw [← List.flatten_cons, ← List.drop_eq_getElem_cons inside, ← List.flatten_append,
      List.take_append_drop]
  rw [split, ← front, ← Nat.add_zero (List.length _), cut_append_right, cut_zero,
    List.take_left' (h _ (List.getElem_mem inside))]

theorem chunks_nil (width : ℕ) : chunks width [] = [] := by
  rw [chunks, dif_pos (Or.inl rfl)]

/-- A whole piece in front is cut off first. -/
theorem chunks_append {width : ℕ} (pos : 0 < width) {xs : Bytes} (hx : xs.length = width)
    (ys : Bytes) : chunks width (xs ++ ys) = xs :: chunks width ys := by
  have full : ¬ (xs ++ ys = [] ∨ width = 0) := by
    rintro (h | h)
    · have := congrArg List.length h
      rw [List.length_append, List.length_nil] at this
      omega
    · omega
  rw [chunks, dif_neg full, ← hx, List.take_left, List.drop_left]

/-- Whole pieces in front are cut off one after the other. -/
theorem chunks_flatten_append {width : ℕ} (pos : 0 < width) {pieces : List Bytes}
    (h : ∀ p ∈ pieces, p.length = width) (rest : Bytes) :
    chunks width (pieces.flatten ++ rest) = pieces ++ chunks width rest := by
  induction pieces with
  | nil => rfl
  | cons p pieces ih =>
    rw [List.forall_mem_cons] at h
    rw [List.flatten_cons, List.append_assoc, chunks_append pos h.1, ih h.2, List.cons_append]

/-- **Cutting undoes joining**, for pieces of one width. -/
theorem chunks_flatten {width : ℕ} (pos : 0 < width) {pieces : List Bytes}
    (h : ∀ p ∈ pieces, p.length = width) : chunks width pieces.flatten = pieces := by
  have all := chunks_flatten_append pos h []
  rwa [List.append_nil, chunks_nil, List.append_nil] at all

/-- What is shorter than a piece is one by itself. -/
theorem chunks_short {width : ℕ} {bs : Bytes} (some : bs ≠ []) (short : bs.length ≤ width) :
    chunks width bs = [bs] := by
  have full : ¬ (bs = [] ∨ width = 0) := by
    have := List.length_pos_iff.mpr some
    rintro (h | h)
    · exact some h
    · omega
  rw [chunks, dif_neg full, List.take_of_length_le short, List.drop_of_length_le short, chunks_nil]

/-- Bytes of a length that pieces fill are the join of such pieces. -/
theorem exists_pieces {width count : ℕ} {bs : Bytes} (h : bs.length = width * count) :
    ∃ pieces : List Bytes, pieces.flatten = bs ∧ pieces.length = count ∧
      ∀ p ∈ pieces, p.length = width := by
  induction count generalizing bs with
  | zero =>
    have none : bs = [] := List.length_eq_zero_iff.mp (by rw [h, Nat.mul_zero])
    exact ⟨[], none.symm, rfl, by simp⟩
  | succ count ih =>
    rw [Nat.mul_succ] at h
    have behind : (bs.drop width).length = width * count := by
      rw [List.length_drop]
      omega
    obtain ⟨pieces, join, size, widths⟩ := ih behind
    refine ⟨bs.take width :: pieces, ?_, ?_, ?_⟩
    · rw [List.flatten_cons, join, List.take_append_drop]
    · rw [List.length_cons, size]
    · rw [List.forall_mem_cons]
      refine ⟨?_, widths⟩
      rw [List.length_take]
      omega

/-- Some bytes are cut into whole pieces and one behind them that may be shorter. -/
theorem exists_chunks {width : ℕ} (pos : 0 < width) {bs : Bytes} (some : bs ≠ []) :
    ∃ pieces last, chunks width bs = pieces ++ [last] ∧ pieces.flatten ++ last = bs ∧
      (∀ p ∈ pieces, p.length = width) ∧ last ≠ [] ∧ last.length ≤ width := by
  have size := List.length_pos_iff.mpr some
  obtain ⟨count, few, many⟩ :
      ∃ count, width * count < bs.length ∧ bs.length ≤ width * count + width := by
    have whole := Nat.div_add_mod (bs.length - 1) width
    have rest := Nat.mod_lt (bs.length - 1) pos
    exact ⟨(bs.length - 1) / width, by omega, by omega⟩
  have front : (bs.take (width * count)).length = width * count := by
    rw [List.length_take]
    omega
  have rest : (bs.drop (width * count)).length = bs.length - width * count := List.length_drop
  have left : bs.drop (width * count) ≠ [] := List.ne_nil_of_length_pos (by omega)
  obtain ⟨pieces, join, _, widths⟩ := exists_pieces front
  refine ⟨pieces, bs.drop (width * count), ?_, ?_, widths, left, by omega⟩
  · rw [← List.take_append_drop (width * count) bs, ← join, chunks_flatten_append pos widths, join,
      List.take_append_drop, chunks_short left (by omega)]
  · rw [join, List.take_append_drop]

theorem padTo_of_length {width : ℕ} {bs : Bytes} (whole : bs.length = width) :
    bs.padTo width = bs := by
  rw [padTo, whole, Nat.sub_self]
  exact List.append_nil bs

theorem length_padTo {width : ℕ} {bs : Bytes} (short : bs.length ≤ width) :
    (bs.padTo width).length = width := by
  rw [padTo, List.length_append, length_zeros]
  omega

/-! ## Overwriting -/

theorem length_overwrite {bs : Bytes} {start : ℕ} {piece : Bytes}
    (h : start + piece.length ≤ bs.length) : (bs.overwrite start piece).length = bs.length := by
  rw [overwrite, List.length_append, List.length_append, List.length_take, List.length_drop]
  omega

/-- What was written is read back. -/
theorem cut_overwrite {bs : Bytes} {start : ℕ} {piece : Bytes}
    (h : start + piece.length ≤ bs.length) :
    (bs.overwrite start piece).cut start piece.length = piece := by
  have front : (bs.take start).length = start := by
    rw [List.length_take]
    omega
  have there := cut_append_right (bs.take start) (piece ++ bs.drop (start + piece.length)) 0
    piece.length
  rw [front, Nat.add_zero, cut_zero, List.take_left] at there
  rw [overwrite, List.append_assoc]
  exact there

/-- **Frame.** Bytes in front of what was written or behind it are as they were. -/
theorem cut_overwrite_apart {bs : Bytes} {start : ℕ} {piece : Bytes}
    (h : start + piece.length ≤ bs.length) {offset count : ℕ}
    (apart : offset + count ≤ start ∨ start + piece.length ≤ offset) :
    (bs.overwrite start piece).cut offset count = bs.cut offset count := by
  have front : (bs.take start).length = start := by
    rw [List.length_take]
    omega
  obtain before | behind := apart
  · rw [overwrite, List.append_assoc, cut_append_left (by omega)]
    rw [cut, cut, List.drop_take, List.take_take, Nat.min_eq_left (by omega)]
  · obtain ⟨past, rfl⟩ := Nat.exists_eq_add_of_le behind
    have size : (bs.take start ++ piece).length = start + piece.length := by
      rw [List.length_append, front]
    rw [overwrite, ← size, cut_append_right, cut, cut, List.drop_drop]

/-! ## Single bytes -/

/-- A byte outside of a cut is not seen in it. -/
theorem cut_set_apart {bs : Bytes} {place start count : ℕ}
    (apart : place < start ∨ start + count ≤ place) (b : UInt8) :
    cut (bs.set place b) start count = bs.cut start count := by
  apply List.ext_getElem?
  intro i
  rw [getElem?_cut, getElem?_cut]
  split
  · rw [List.getElem?_set_ne (by omega)]
  · rfl

/-- A byte behind the start of a cut is as far behind it in the cut. -/
theorem cut_set {bs : Bytes} {place start : ℕ} (behind : start ≤ place) (count : ℕ) (b : UInt8) :
    cut (bs.set place b) start count = (bs.cut start count).set (place - start) b := by
  rw [cut, cut, List.drop_set, if_neg (Nat.not_lt.mpr behind), List.take_set]

end Bytes

end ProofGate
