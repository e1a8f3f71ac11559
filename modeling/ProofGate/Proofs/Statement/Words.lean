import ProofGate.Statement.Decode
import ProofGate.Proofs.Bytes
import Mathlib.Tactic.Common

/-!
# Words of a statement

A statement travels in words of 32 bytes, the last one filled up with zeros, and its length tells
where it ends. Bytes that were split are joined again to what they were, and words that were joined
to a length and split again are those that the length reaches, blank from there on.
-/

namespace ProofGate.Statement

/-! ## Splitting -/

theorem splitWords_nil : splitWords [] = [] := by
  rw [splitWords, Bytes.chunks_nil, List.map_nil]

/-- A whole word in front is split off as it is. -/
theorem splitWords_append {w : Bytes} (size : w.length = 32) (bs : Bytes) :
    splitWords (w ++ bs) = w :: splitWords bs := by
  rw [splitWords, Bytes.chunks_append (by decide) size, List.map_cons, Bytes.padTo_of_length size]
  rfl

/-- What is left for the last word is filled up. -/
theorem splitWords_short {bs : Bytes} (some : bs ≠ []) (short : bs.length ≤ 32) :
    splitWords bs = [bs.padTo 32] := by
  rw [splitWords, Bytes.chunks_short some short, List.map_singleton]

/-- All words but the last one are pieces of the bytes; the last one is filled up. -/
theorem exists_splitWords {data : Bytes} (some : data ≠ []) :
    ∃ pieces last, data.chunks 32 = pieces ++ [last] ∧
      splitWords data = pieces ++ [last.padTo 32] ∧ pieces.flatten ++ last = data ∧
      (∀ p ∈ pieces, p.length = 32) ∧ last ≠ [] ∧ last.length ≤ 32 := by
  obtain ⟨pieces, last, cut, join, widths, left, short⟩ :=
    Bytes.exists_chunks (show 0 < 32 by decide) some
  refine ⟨pieces, last, cut, ?_, join, widths, left, short⟩
  have whole : pieces.map (Bytes.padTo 32) = pieces :=
    (List.map_congr_left fun p hp => Bytes.padTo_of_length (widths p hp)).trans (List.map_id pieces)
  rw [splitWords, cut, List.map_append, whole, List.map_singleton]

/-- **Words of bytes.** There are as many words as it takes, and they hold the bytes and zeros. -/
theorem splitWords_spec (data : Bytes) :
    (splitWords data).length = (data.length + 31) / 32 ∧
      (∀ w ∈ splitWords data, w.length = 32) ∧
      (splitWords data).flatten =
        data ++ Bytes.zeros (32 * ((data.length + 31) / 32) - data.length) := by
  by_cases none : data = []
  · rw [none, splitWords_nil]
    exact ⟨rfl, by simp, rfl⟩
  · obtain ⟨pieces, last, _, words, join, widths, left, short⟩ := exists_splitWords none
    have some := List.length_pos_iff.mpr left
    have size : data.length = 32 * pieces.length + last.length := by
      rw [← join, List.length_append, Bytes.length_flatten widths]
    have count : pieces.length + 1 = (data.length + 31) / 32 := by omega
    have missing : 32 - last.length = 32 * ((data.length + 31) / 32) - data.length := by omega
    rw [words]
    refine ⟨?_, ?_, ?_⟩
    · rw [List.length_append, List.length_singleton, count]
    · rw [List.forall_mem_append, List.forall_mem_singleton]
      exact ⟨widths, Bytes.length_padTo short⟩
    · rw [List.flatten_append, List.flatten_singleton, Bytes.padTo, missing, ← List.append_assoc,
        join]

/-- Twelve words take a statement, the last one filled up. -/
theorem splitWords_eq {data : Bytes} (h : data.length = 368) :
    (splitWords data).length = 12 ∧ (∀ w ∈ splitWords data, w.length = 32) ∧
      (splitWords data).flatten = data ++ Bytes.zeros 16 := by
  have spec := splitWords_spec data
  rw [h] at spec
  exact spec

/-! ## Joining -/

variable {ws : List Bytes} {n : ℕ} {data : Bytes}

/-- Words are joined to a length exactly if they reach it, and what is behind it is dropped. -/
theorem joinWords_eq_ok_iff :
    joinWords ws n = .ok data ↔ n ≤ ws.flatten.length ∧ ws.flatten.take n = data := by
  have first : firstBytes ws.flatten n = ws.flatten.take n := by
    rw [firstBytes, if_pos (Int.natCast_nonneg n), Int.toNat_natCast]
  rw [joinWords, first]
  constructor
  · intro joined
    split at joined
    · cases joined
    · next reached =>
      cases joined
      exact ⟨Int.ofNat_le.mp (Int.not_lt.mp reached), rfl⟩
  · rintro ⟨reached, rfl⟩
    exact if_neg (Int.not_lt.mpr (Int.ofNat_le.mpr reached))

theorem joinWords_isOk_iff :
    (∃ data, joinWords ws n = .ok data) ↔ n ≤ (ws.map List.length).sum := by
  rw [← List.length_flatten]
  constructor
  · rintro ⟨data, joined⟩
    exact (joinWords_eq_ok_iff.mp joined).1
  · intro reached
    exact ⟨_, joinWords_eq_ok_iff.mpr ⟨reached, rfl⟩⟩

theorem kind_of_joinWords {total : ℤ} {e : Failure} (h : joinWords ws total = .error e) :
    e.kind = .malformedBundle := by
  rw [joinWords] at h
  split at h
  · cases h
    rfl
  · cases h

/-- **Joining undoes splitting**, since the zeros stand behind all bytes. -/
theorem joinWords_splitWords (data : Bytes) :
    joinWords (splitWords data) data.length = .ok data := by
  obtain ⟨_, _, flat⟩ := splitWords_spec data
  rw [joinWords_eq_ok_iff, flat, List.length_append, List.take_left]
  exact ⟨Nat.le_add_right .., rfl⟩

/-! ## Words that a length reaches -/

/-- Words with all bytes blank from a place on, where places run through all words. -/
def blankedFrom (n : ℕ) (ws : List Bytes) : List Bytes :=
  ws.mapIdx fun i w => w.mapIdx fun k b => if 32 * i + k < n then b else 0

/-- In the first word places are its own; in those behind it they are 32 ahead. -/
theorem blankedFrom_cons (n : ℕ) (w : Bytes) (ws : List Bytes) :
    blankedFrom n (w :: ws) =
      (w.mapIdx fun k b => if k < n then b else 0) :: blankedFrom (n - 32) ws := by
  have first (k : ℕ) : 32 * 0 + k < n ↔ k < n := by omega
  have behind (i k : ℕ) : 32 * (i + 1) + k < n ↔ 32 * i + k < n - 32 := by omega
  simp only [blankedFrom, List.mapIdx_cons, first, behind]

/-- A word that is blank from a place on keeps its front, and zeros follow. -/
theorem blanked_eq_take (n : ℕ) (w : Bytes) :
    (w.mapIdx fun k b => if k < n then b else 0) = w.take n ++ Bytes.zeros (w.length - n) := by
  induction w generalizing n with
  | nil => simp [Bytes.zeros]
  | cons b w ih =>
    cases n with
    | zero => simpa [Bytes.zeros, List.replicate_succ] using ih 0
    | succ n =>
      simp only [List.mapIdx_cons, Nat.zero_lt_succ, if_true, Nat.succ_lt_succ_iff, ih,
        List.take_succ_cons, List.length_cons, Nat.succ_sub_succ, List.cons_append]

/-- **Splitting after a cut.** Words that are cut off at a length and split again are those that
the length reaches, blank from there on. -/
theorem splitWords_take_flatten (widths : ∀ w ∈ ws, w.length = 32)
    (reached : n ≤ ws.flatten.length) :
    splitWords (ws.flatten.take n) = blankedFrom n (ws.take ((n + 31) / 32)) := by
  induction ws generalizing n with
  | nil =>
    rw [List.flatten_nil, List.take_nil, List.take_nil, splitWords_nil]
    rfl
  | cons w ws ih =>
    obtain ⟨size, widths⟩ := List.forall_mem_cons.mp widths
    rw [List.flatten_cons, List.length_append, size] at reached
    rw [List.flatten_cons]
    -- The length ends in front of the first word, inside of it, or behind it.
    obtain rfl | some := Nat.eq_zero_or_pos n
    · rw [List.take_zero, splitWords_nil]
      rfl
    obtain more | last := Nat.lt_or_ge 32 n
    · have cut : (w ++ ws.flatten).take n = w ++ ws.flatten.take (n - 32) := by
        rw [List.take_append, List.take_of_length_le (by omega), size]
      have count : (n + 31) / 32 = (n - 32 + 31) / 32 + 1 := by omega
      have none : w.length - n = 0 := by omega
      have whole : (w.mapIdx fun k b => if k < n then b else 0) = w := by
        rw [blanked_eq_take, List.take_of_length_le (by omega), none]
        exact List.append_nil w
      rw [cut, splitWords_append size, ih widths (by omega), count, List.take_succ_cons,
        blankedFrom_cons, whole]
    · have cut : (w ++ ws.flatten).take n = w.take n := List.take_append_of_le_length (by omega)
      have part : (w.take n).length = n := List.length_take_of_le (by omega)
      have count : (n + 31) / 32 = 1 := by omega
      rw [cut, splitWords_short (List.ne_nil_of_length_pos (by omega)) (by omega), count,
        List.take_succ_cons, List.take_zero, blankedFrom_cons, blanked_eq_take, Bytes.padTo, part,
        size]
      rfl

/-- **Words and bytes.** Bytes of any length are split into as many words as it takes, each of 32
bytes, and their length joins these to the same bytes. Byte strings are joined to a length exactly
if together they reach it, and are then its first bytes; what is too short is told to be malformed.
Where each of them is a word, splitting gives the words that the length reaches, with the bytes from
the length on blank. -/
theorem words_inverse :
    (∀ data : Bytes, (splitWords data).length = (data.length + 31) / 32 ∧
      (∀ w ∈ splitWords data, w.length = 32) ∧
      joinWords (splitWords data) data.length = .ok data) ∧
    ∀ (ws : List Bytes) (n : ℕ),
      ((∃ data, joinWords ws n = .ok data) ↔ n ≤ (ws.map List.length).sum) ∧
      (∀ e, joinWords ws n = .error e → e.kind = .malformedBundle) ∧
      ∀ data, joinWords ws n = .ok data → data = ws.flatten.take n ∧
        ((∀ w ∈ ws, w.length = 32) →
          splitWords data = blankedFrom n (ws.take ((n + 31) / 32))) := by
  refine ⟨fun data => ?split, fun ws n => ⟨joinWords_isOk_iff, fun e => kind_of_joinWords, ?join⟩⟩
  case split =>
    obtain ⟨count, widths, _⟩ := splitWords_spec data
    exact ⟨count, widths, joinWords_splitWords data⟩
  case join =>
    intro data joined
    obtain ⟨reached, rfl⟩ := joinWords_eq_ok_iff.mp joined
    exact ⟨rfl, fun widths => splitWords_take_flatten widths reached⟩

/-- Two words that are not blank. -/
def filled : List Bytes :=
  [List.replicate 32 0xAA, List.replicate 32 0xBB]

/-- Forty bytes end in the second of two words, of which they leave eight; one byte is not enough
for two. -/
theorem words_inverse_sample :
    joinWords filled 40 = .ok (List.replicate 32 0xAA ++ List.replicate 8 0xBB) ∧
    splitWords (List.replicate 32 0xAA ++ List.replicate 8 0xBB) =
      [List.replicate 32 0xAA, List.replicate 8 0xBB ++ Bytes.zeros 24] ∧
    ∃ e, joinWords [[1]] 2 = .error e ∧ e.kind = .malformedBundle := by
  have joined : joinWords filled (40 : ℕ) = .ok (List.replicate 32 0xAA ++ List.replicate 8 0xBB) :=
    rfl
  obtain ⟨_, join⟩ := words_inverse
  obtain ⟨_, _, cut⟩ := join filled 40
  obtain ⟨_, malformed, _⟩ := join [[1]] 2
  exact ⟨joined, (cut _ joined).2 (by decide), _, rfl, malformed _ rfl⟩

end ProofGate.Statement
