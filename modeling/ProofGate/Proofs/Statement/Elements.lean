import ProofGate.Proofs.Statement.Reading
import ProofGate.Statement.Encode

/-!
# Elements and their digits

Elements of eight bytes against the digits in their low halves, in both directions. What was
written as digits is read back; what was read as digits is written back with the high halves
zero. Amounts are the exception: eight limbs are written, but read without being shifted, so that
only the bits of all limbs together come back.
-/

namespace ProofGate

namespace Digits

/-! ## Digits of elements in a row -/

theorem spelled_append_right (xs ys : Bytes) (offset count : ℕ) :
    spelled (xs ++ ys) (xs.length + offset) count = spelled ys offset count := by
  simp only [spelled, Nat.add_assoc, Bytes.cut_append_right]

theorem listed_append_right (xs ys : Bytes) (offset count : ℕ) :
    listed (xs ++ ys) (xs.length + offset) count = listed ys offset count := by
  simp only [listed, Nat.add_assoc, Bytes.cut_append_right]

theorem spelled_flatten {es : List Bytes} (h : ∀ e ∈ es, e.length = 8) :
    spelled es.flatten 0 es.length = es.flatMap fun e => e.take 4 := by
  induction es with
  | nil => rfl
  | cons e es ih =>
    rw [List.forall_mem_cons] at h
    have rest := spelled_append_right e es.flatten 0 es.length
    rw [h.1, Nat.add_zero] at rest
    rw [List.flatten_cons, List.length_cons, spelled_succ, Nat.zero_add, rest, ih h.2,
      List.flatMap_cons, Bytes.cut_append_left (by omega), Bytes.cut_zero]

theorem listed_flatten {es : List Bytes} (h : ∀ e ∈ es, e.length = 8) :
    listed es.flatten 0 es.length = es.map fun e => Bytes.natLE (e.take 4) := by
  induction es with
  | nil => rfl
  | cons e es ih =>
    rw [List.forall_mem_cons] at h
    have rest := listed_append_right e es.flatten 0 es.length
    rw [h.1, Nat.add_zero] at rest
    rw [List.flatten_cons, List.length_cons, listed_succ, Nat.zero_add, rest, ih h.2,
      List.map_cons, Bytes.cut_append_left (by omega), Bytes.cut_zero]

/-- Elements with their high halves zeroed. -/
def narrowed (p : Bytes) : Bytes :=
  (p.chunks 8).flatMap fun e => e.take 4 ++ Bytes.zeros 4

theorem narrowed_flatten {es : List Bytes} (h : ∀ e ∈ es, e.length = 8) :
    narrowed es.flatten = es.flatMap fun e => e.take 4 ++ Bytes.zeros 4 := by
  rw [narrowed, Bytes.chunks_flatten (by decide) h]

/-! ## Left padded digits -/

theorem leftPaddedElements_flatten {ds : List Bytes} (h : ∀ d ∈ ds, d.length = 4) :
    Sketch.leftPaddedElements ds.flatten = ds.flatMap fun d => d ++ Bytes.zeros 4 := by
  rw [Sketch.leftPaddedElements, Bytes.chunks_flatten (by decide) h]

theorem padded_widths {ds : List Bytes} (h : ∀ d ∈ ds, d.length = 4) :
    ∀ e ∈ ds.map fun d => d ++ Bytes.zeros 4, e.length = 8 := by
  intro e he
  obtain ⟨d, hd, rfl⟩ := List.mem_map.mp he
  rw [List.length_append, h d hd, Bytes.length_zeros]

theorem length_leftPaddedElements {bs : Bytes} {count : ℕ} (h : bs.length = 4 * count) :
    (Sketch.leftPaddedElements bs).length = 8 * count := by
  obtain ⟨ds, rfl, rfl, widths⟩ := Bytes.exists_pieces h
  rw [leftPaddedElements_flatten widths, List.flatMap_def,
    Bytes.length_flatten (padded_widths widths), List.length_map]

/-- Left padded digits are read as they were written. -/
theorem spelled_leftPaddedElements {bs : Bytes} {count : ℕ} (h : bs.length = 4 * count) :
    spelled (Sketch.leftPaddedElements bs) 0 count = bs := by
  obtain ⟨ds, rfl, rfl, widths⟩ := Bytes.exists_pieces h
  have back := spelled_flatten (padded_widths widths)
  rw [List.length_map, ← List.flatMap_def, List.flatMap_map] at back
  rw [leftPaddedElements_flatten widths, back, List.flatMap_def]
  congr 1
  refine (List.map_congr_left fun d hd => ?_).trans (List.map_id ds)
  rw [← widths d hd, List.take_left]
  rfl

/-- Left padded digits are written as they were read. -/
theorem leftPaddedElements_spelled {p : Bytes} {count : ℕ} (h : p.length = 8 * count) :
    Sketch.leftPaddedElements (spelled p 0 count) = narrowed p := by
  obtain ⟨es, rfl, rfl, widths⟩ := Bytes.exists_pieces h
  have digits : ∀ d ∈ es.map fun e => e.take 4, d.length = 4 := by
    intro d hd
    obtain ⟨e, he, rfl⟩ := List.mem_map.mp hd
    rw [List.length_take, widths e he]
    rfl
  rw [spelled_flatten widths, List.flatMap_def, leftPaddedElements_flatten digits,
    List.flatMap_map, narrowed_flatten widths]

/-! ## Direct digits -/

/-- The element that carries a number. -/
abbrev carried (n : ℕ) : Bytes :=
  Bytes.ofNatLE 8 n

theorem carried_of_lt {n : ℕ} (h : n < 2 ^ 32) : carried n = Bytes.ofNatLE 4 n ++ Bytes.zeros 4 :=
  Bytes.ofNatLE_of_lt h 4

theorem natLE_take_carried (n : ℕ) : Bytes.natLE ((carried n).take 4) = n % 2 ^ 32 := by
  have low : (Bytes.ofNatLE 4 n).length = 4 := Bytes.length_ofNatLE ..
  rw [carried, Bytes.ofNatLE_add 4 4, List.take_left' low, Bytes.natLE_ofNatLE]
  rfl

theorem carried_widths (ns : List ℕ) : ∀ e ∈ ns.map carried, e.length = 8 := by
  intro e he
  obtain ⟨n, _, rfl⟩ := List.mem_map.mp he
  exact Bytes.length_ofNatLE ..

theorem length_carried (ns : List ℕ) : (ns.flatMap carried).length = 8 * ns.length := by
  rw [List.flatMap_def, Bytes.length_flatten (carried_widths ns), List.length_map]

/-- Numbers of one digit are read as they were written. -/
theorem listed_carried {ns : List ℕ} (h : ∀ n ∈ ns, n < 2 ^ 32) :
    listed (ns.flatMap carried) 0 ns.length = ns := by
  have back := listed_flatten (carried_widths ns)
  rw [List.length_map, ← List.flatMap_def, List.map_map] at back
  rw [back]
  refine (List.map_congr_left fun n hn => ?_).trans (List.map_id ns)
  show Bytes.natLE ((carried n).take 4) = n
  rw [natLE_take_carried, Nat.mod_eq_of_lt (h n hn)]

theorem carried_digit {e : Bytes} (h : e.length = 8) :
    carried (Bytes.natLE (e.take 4)) = e.take 4 ++ Bytes.zeros 4 := by
  have low : (e.take 4).length = 4 := by
    rw [List.length_take, h]
    rfl
  have small := Bytes.natLE_lt (e.take 4)
  have back := Bytes.ofNatLE_natLE (e.take 4)
  rw [low] at small back
  rw [carried_of_lt small, back]

/-- Numbers of one digit are written as they were read. -/
theorem carried_listed {p : Bytes} {count : ℕ} (h : p.length = 8 * count) :
    (listed p 0 count).flatMap carried = narrowed p := by
  obtain ⟨es, rfl, rfl, widths⟩ := Bytes.exists_pieces h
  rw [listed_flatten widths, List.flatMap_map, narrowed_flatten widths, List.flatMap_def,
    List.flatMap_def]
  congr 1
  exact List.map_congr_left fun e he => carried_digit (widths e he)

theorem listed_lt {p : Bytes} {count : ℕ} (h : p.length = 8 * count) :
    ∀ n ∈ listed p 0 count, n < 2 ^ 32 := by
  obtain ⟨es, rfl, rfl, widths⟩ := Bytes.exists_pieces h
  rw [listed_flatten widths]
  intro n hn
  obtain ⟨e, he, rfl⟩ := List.mem_map.mp hn
  have low : (e.take 4).length = 4 := by
    rw [List.length_take, widths e he]
    rfl
  have small := Bytes.natLE_lt (e.take 4)
  rwa [low] at small

/-! ## Amounts -/

/-- The eight limbs of 32 bits of a number, the lowest first. -/
def limbs (n : ℕ) : List ℕ :=
  (List.range 8).map fun i => n / 2 ^ (32 * i) % 2 ^ 32

/-- The bits set in any limb. -/
def merged (n : ℕ) : ℕ :=
  (limbs n).foldr (· ||| ·) 0

theorem length_limbs (n : ℕ) : (limbs n).length = 8 := by
  rw [limbs, List.length_map, List.length_range]

theorem limbs_lt (n : ℕ) : ∀ d ∈ limbs n, d < 2 ^ 32 := by
  intro d hd
  obtain ⟨i, _, rfl⟩ := List.mem_map.mp hd
  exact Nat.mod_lt _ (by decide)

theorem union_lt {ds : List ℕ} (h : ∀ d ∈ ds, d < 2 ^ 32) : ds.foldr (· ||| ·) 0 < 2 ^ 32 := by
  induction ds with
  | nil => decide
  | cons d ds ih =>
    rw [List.forall_mem_cons] at h
    exact Nat.or_lt_two_pow h.1 (ih h.2)

theorem merged_lt (n : ℕ) : merged n < 2 ^ 32 := union_lt (limbs_lt n)

/-- A number of one limb has no others. -/
theorem limbs_of_lt {n : ℕ} (h : n < 2 ^ 32) : limbs n = n :: List.replicate 7 0 := by
  have high (i : ℕ) : n / 2 ^ (32 * (i + 1)) % 2 ^ 32 = 0 := by
    have : 2 ^ 32 ≤ 2 ^ (32 * (i + 1)) := Nat.pow_le_pow_right (by decide) (by omega)
    rw [Nat.div_eq_of_lt (by omega), Nat.zero_mod]
  have rest : (List.range 7).map (fun i => n / 2 ^ (32 * (i + 1)) % 2 ^ 32) =
      List.replicate 7 0 := by
    simp only [high]
    rfl
  rw [limbs, List.range_succ_eq_map, List.map_cons, List.map_map]
  congr 1
  rw [Nat.mul_zero, pow_zero, Nat.div_one, Nat.mod_eq_of_lt h]

theorem merged_of_lt {n : ℕ} (h : n < 2 ^ 32) : merged n = n := by
  rw [merged, limbs_of_lt h, List.foldr_cons]
  exact Nat.or_zero n

/-- Only numbers of one limb come back. -/
theorem merged_eq_iff {n : ℕ} : merged n = n ↔ n < 2 ^ 32 := by
  constructor
  · intro h
    rw [← h]
    exact merged_lt n
  · exact merged_of_lt

/-- Amounts are read as the bits of all their limbs. -/
theorem joined_limbs (n : ℕ) : joined ((limbs n).flatMap carried) 0 8 = merged n := by
  have back := listed_carried (limbs_lt n)
  rw [length_limbs] at back
  rw [joined, back, merged]

theorem joined_lt {p : Bytes} {count : ℕ} (h : p.length = 8 * count) :
    joined p 0 count < 2 ^ 32 :=
  union_lt (listed_lt h)

/-- An amount of one limb fills the first digit. -/
theorem carried_limbs_of_lt {n : ℕ} (h : n < 2 ^ 32) :
    (limbs n).flatMap carried = Bytes.ofNatLE 4 n ++ Bytes.zeros 60 := by
  rw [limbs_of_lt h, List.flatMap_cons, carried_of_lt h, List.append_assoc]
  rfl

end Digits

end ProofGate
