import ProofGate.Proofs.Bundle.Forms

/-!
# Edits of a bundle

One byte of a bundle can be replaced. It belongs to one word, and so to a number of the proof, to an
input, to the statement or to the filling; everything else stays as it is. Edits of different bytes
can be made in any order, and of two edits of one byte the last one counts.
-/

namespace ProofGate

namespace Bundle

/-! ## Views as cuts -/

theorem getElem?_words (b : Bundle) {k : ℕ} (h : k < 23) :
    b.words[k]? = some (b.toBuffer.cut (32 * k) 32) := by
  have inside : k < b.words.length := by rwa [b.count]
  have there : b.words[k]? = some b.words[k] := List.getElem?_eq_getElem inside
  rw [toBuffer, Bytes.cut_flatten b.widths there, there]

theorem statement_eq_cut (b : Bundle) : b.statement = b.toBuffer.cut 352 368 := by
  have split : b.toBuffer = (b.words.take 11).flatten ++ (b.words.drop 11).flatten := by
    rw [toBuffer, ← List.flatten_append, List.take_append_drop]
  rw [split, Bytes.cut, List.drop_left' (length_head b)]
  rfl

/-! ## Another byte in the buffer -/

section Changed

variable {b c : Bundle} {place : ℕ} {byte : UInt8}

theorem word_of_set (changed : c.toBuffer = b.toBuffer.set place byte) {k : ℕ}
    (other : k ≠ place / 32) : c.words[k]? = b.words[k]? := by
  by_cases inside : k < 23
  · rw [c.getElem?_words inside, b.getElem?_words inside, changed, Bytes.cut_set_apart (by omega)]
  · rw [List.getElem?_eq_none (by rw [c.count]; omega),
      List.getElem?_eq_none (by rw [b.count]; omega)]

theorem proof_of_set (changed : c.toBuffer = b.toBuffer.set place byte) {k : ℕ}
    (other : k < 8 → k ≠ place / 32) : c.proof[k]? = b.proof[k]? := by
  rw [getElem?_proof, getElem?_proof]
  split
  · next inside => rw [word_of_set changed (other inside)]
  · rfl

theorem inputs_of_set (changed : c.toBuffer = b.toBuffer.set place byte) {k : ℕ}
    (other : k < 3 → 8 + k ≠ place / 32) : c.inputs[k]? = b.inputs[k]? := by
  rw [getElem?_inputs, getElem?_inputs]
  split
  · next inside => rw [word_of_set changed (other inside)]
  · rfl

theorem statement_of_set (changed : c.toBuffer = b.toBuffer.set place byte) :
    c.statement = if place < 352 then b.statement else b.statement.set (place - 352) byte := by
  rw [c.statement_eq_cut, b.statement_eq_cut, changed]
  split
  · next front => exact Bytes.cut_set_apart (Or.inl front) byte
  · next behind => exact Bytes.cut_set (Nat.not_lt.mp behind) 368 byte

theorem toBytes_of_set (changed : c.toBuffer = b.toBuffer.set place byte) (filling : 720 ≤ place) :
    b.toBytes = c.toBytes := by
  have size : (b.toBuffer.take 720).length ≤ place := by
    rw [List.length_take]
    omega
  rw [b.toBytes_eq_take, c.toBytes_eq_take, changed, List.take_set, List.set_eq_of_length_le size]

end Changed

/-- What the replacement of one byte of a bundle changes. -/
structure Edited (b c : Bundle) (place : ℕ) (byte : UInt8) : Prop where
  buffer : c.toBuffer = b.toBuffer.set place byte
  proof : place < 256 → (∀ k, k ≠ place / 32 → c.proof[k]? = b.proof[k]?) ∧
    c.inputs = b.inputs ∧ c.statement = b.statement
  inputs : 256 ≤ place → place < 352 → c.proof = b.proof ∧
    (∀ k, k ≠ (place - 256) / 32 → c.inputs[k]? = b.inputs[k]?) ∧ c.statement = b.statement
  statement : 352 ≤ place → place < 720 → c.proof = b.proof ∧ c.inputs = b.inputs ∧
    c.statement = b.statement.set (place - 352) byte
  filling : 720 ≤ place → Indistinct b c

/-- A byte belongs to one word, and a word to one view. -/
theorem edited_of_set {b c : Bundle} {place : ℕ} {byte : UInt8}
    (changed : c.toBuffer = b.toBuffer.set place byte) : Edited b c place byte := by
  have sameProof (behind : 256 ≤ place) : c.proof = b.proof :=
    List.ext_getElem? fun k => proof_of_set changed (by omega)
  have sameInputs (outside : place < 256 ∨ 352 ≤ place) : c.inputs = b.inputs :=
    List.ext_getElem? fun k => inputs_of_set changed (by omega)
  have statement := statement_of_set changed
  refine ⟨changed, ?proof, ?inputs, ?statement, ?filling⟩
  case proof =>
    intro front
    rw [if_pos (by omega)] at statement
    exact ⟨fun k other => proof_of_set changed fun _ => other, sameInputs (Or.inl front), statement⟩
  case inputs =>
    intro behind front
    rw [if_pos front] at statement
    exact ⟨sameProof behind, fun k other => inputs_of_set changed (by omega), statement⟩
  case statement =>
    intro behind _
    rw [if_neg (Nat.not_lt.mpr behind)] at statement
    exact ⟨sameProof (by omega), sameInputs (Or.inr behind), statement⟩
  case filling =>
    intro behind
    exact indistinct_of_toBytes (toBytes_of_set changed behind)

/-! ## Places and bytes -/

/-- Two values name a place among the bytes of a bundle, which counts from the end if it is below
zero, and a byte to stand there. -/
structure Edit (index value : Value) (place : ℕ) (byte : UInt8) : Prop where
  inside : place < 736
  index : index.count? = some (place : Int) ∨ index.count? = some ((place : Int) - 736)
  value : value.count? = some (byte.toNat : Int)

theorem exists_edit_iff {index value : Value} : (∃ place byte, Edit index value place byte) ↔
    ∃ i n, index.count? = some i ∧ value.count? = some n ∧
      -736 ≤ i ∧ i < 736 ∧ 0 ≤ n ∧ n < 256 := by
  constructor
  · rintro ⟨place, byte, inside, named, value⟩
    have small := byte.toNat_lt
    rcases named with front | back
    · exact ⟨place, byte.toNat, front, value, by omega, by omega, by omega, by omega⟩
    · exact ⟨(place : Int) - 736, byte.toNat, back, value, by omega, by omega, by omega, by omega⟩
  · rintro ⟨i, n, index, value, low, high, nonneg, small⟩
    have byte : ((UInt8.ofNat n.toNat).toNat : Int) = n := by
      rw [UInt8.toNat_ofNat', Nat.mod_eq_of_lt (by omega)]
      omega
    rcases Int.lt_or_le i 0 with back | front
    · refine ⟨(i + 736).toNat, _, by omega, Or.inr ?_, byte.symm ▸ value⟩
      rw [index, Option.some.injEq]
      omega
    · refine ⟨i.toNat, _, by omega, Or.inl ?_, byte.symm ▸ value⟩
      rw [index, Option.some.injEq]
      omega

theorem isIndex_of_near {i : Int} (low : -736 ≤ i) (high : i < 736) : isIndex i = true := by
  have wide : (736 : Int) ≤ twoTo 63 := by decide
  rw [isIndex, Bool.and_eq_true, decide_eq_true_iff, decide_eq_true_iff]
  omega

/-- A replacement is that of one byte of the buffer, if the numbers are those of one. -/
theorem withByte_of_counts (b : Bundle) {index value : Value} {i n : Int}
    (numbered : index.count? = some i) (valued : value.count? = some n) :
    b.withByte index value =
      if isIndex i = false then .error .indexTooWide
      else if n < 0 ∨ 256 ≤ n then .error (.byteRange true)
      else if i < -736 ∨ 736 ≤ i then .error .byteIndex
      else ofBytes (b.toBuffer.set (if i < 0 then i + 736 else i).toNat (UInt8.ofNat n.toNat)) := by
  have number : Member.count index = .ok i := by rw [Member.count, numbered]
  have byte : Member.count value = .ok n := by rw [Member.count, valued]
  have far : ((if i < 0 then i + Int.ofNat 736 else i) < 0 ∨
      Int.ofNat 736 ≤ if i < 0 then i + Int.ofNat 736 else i) ↔ i < -736 ∨ 736 ≤ i := by
    have size : Int.ofNat 736 = 736 := rfl
    split <;> omega
  simp only [withByte, number, byte, ok_bind, length_toBuffer, far]
  cases isIndex i with
  | false => rfl
  | true =>
    simp only [Bool.not_true, Bool.true_eq_false, Bool.false_eq_true, if_false]
    by_cases outside : n < 0 ∨ 256 ≤ n
    · rw [if_pos outside, if_pos outside]
      rfl
    · rw [if_neg outside, if_neg outside]
      by_cases behind : i < -736 ∨ 736 ≤ i
      · rw [if_pos behind, if_pos behind]
        rfl
      · rw [if_neg behind, if_neg behind]
        rfl

theorem withByte_of_edit (b : Bundle) {index value : Value} {place : ℕ} {byte : UInt8}
    (edit : Edit index value place byte) :
    b.withByte index value = ofBytes (b.toBuffer.set place byte) := by
  have small := byte.toNat_lt
  have inside := edit.inside
  have same : UInt8.ofNat (byte.toNat : Int).toNat = byte := by
    rw [Int.toNat_natCast, UInt8.ofNat_toNat]
  rcases edit.index with front | back
  · rw [b.withByte_of_counts front edit.value, isIndex_of_near (by omega) (by omega),
      if_neg (by decide), if_neg (by omega), if_neg (by omega), if_neg (by omega), same,
      Int.toNat_natCast]
  · have there : ((place : Int) - 736 + 736).toNat = place := by omega
    rw [b.withByte_of_counts back edit.value, isIndex_of_near (by omega) (by omega),
      if_neg (by decide), if_neg (by omega), if_neg (by omega), if_pos (by omega), same, there]

/-- A buffer of all bytes of a bundle is one. -/
theorem exists_of_set (b : Bundle) (place : ℕ) (byte : UInt8) :
    ∃ c, ofBytes (b.toBuffer.set place byte) = .ok c ∧
      c.toBuffer = b.toBuffer.set place byte := by
  have size : (b.toBuffer.set place byte).length = 736 := by
    rw [List.length_set, length_toBuffer]
  obtain ⟨c, read, buffer⟩ := ofBytes_eq_ok (by omega : 704 < (b.toBuffer.set place byte).length)
    (by omega)
  rw [size] at buffer
  exact ⟨c, read, buffer.trans (List.append_nil _)⟩

/-- Two edits are made in one buffer. -/
theorem withByte_twice (b : Bundle) {i j v w : Value} {m n : ℕ} {x y : UInt8}
    (first : Edit i v m x) (second : Edit j w n y) :
    (b.withByte i v >>= fun c => c.withByte j w) = ofBytes ((b.toBuffer.set m x).set n y) := by
  obtain ⟨c, read, buffer⟩ := b.exists_of_set m x
  rw [b.withByte_of_edit first, read, ok_bind, c.withByte_of_edit second, buffer]

/-- Anything but a place and a byte is refused. -/
theorem withByte_refused (b : Bundle) {index value : Value}
    (none : ¬ ∃ place byte, Edit index value place byte) :
    ∃ e, b.withByte index value = .error e ∧
      (e.kind = .type ∨ e.kind = .index ∨ e.kind = .value) := by
  rw [exists_edit_iff] at none
  cases numbered : index.count? with
  | none =>
    refine ⟨.notInteger index, ?_, Or.inl rfl⟩
    simp only [withByte, Member.count, numbered, error_bind]
  | some i =>
    cases valued : value.count? with
    | none =>
      cases wide : isIndex i with
      | false =>
        refine ⟨.indexTooWide, ?_, Or.inr (Or.inl rfl)⟩
        simp only [withByte, Member.count, numbered, wide, ok_bind]
        rfl
      | true =>
        refine ⟨.notInteger value, ?_, Or.inl rfl⟩
        simp only [withByte, Member.count, numbered, valued, wide, ok_bind]
        rfl
    | some n =>
      rw [b.withByte_of_counts numbered valued]
      split
      · exact ⟨_, rfl, Or.inr (Or.inl rfl)⟩
      · split
        · exact ⟨_, rfl, Or.inr (Or.inr rfl)⟩
        · split
          · exact ⟨_, rfl, Or.inr (Or.inl rfl)⟩
          · refine absurd ⟨i, n, numbered, valued, ?_⟩ none
            omega

/-- **Edits.** An integer from -736 to 735 and one from 0 to 255 replace one byte, counted from the
end if the first is below zero, and with it no more than the one number or byte of a view that it is
part of; a byte of the filling nothing that a gate reads. Other values are refused. Edits of
different bytes give the same in any order, and of two edits of one byte the last one counts. -/
theorem withByte_edits (b : Bundle) :
    (∀ index value, (∃ place byte, Edit index value place byte) ↔
      ∃ i n, index.count? = some i ∧ value.count? = some n ∧
        -736 ≤ i ∧ i < 736 ∧ 0 ≤ n ∧ n < 256) ∧
    (∀ index value place byte, Edit index value place byte →
      ∃ c, b.withByte index value = .ok c ∧ Edited b c place byte) ∧
    (∀ index value, (¬ ∃ place byte, Edit index value place byte) →
      ∃ e, b.withByte index value = .error e ∧
        (e.kind = .type ∨ e.kind = .index ∨ e.kind = .value)) ∧
    ∀ i j v w m n x y, Edit i v m x → Edit j w n y →
      (m ≠ n → (b.withByte i v >>= fun c => c.withByte j w) =
        b.withByte j w >>= fun c => c.withByte i v) ∧
      (m = n → (b.withByte i v >>= fun c => c.withByte j w) = b.withByte j w) := by
  refine ⟨fun _ _ => exists_edit_iff, ?edited, fun _ _ => b.withByte_refused, ?twice⟩
  case edited =>
    intro index value place byte edit
    obtain ⟨c, read, buffer⟩ := b.exists_of_set place byte
    exact ⟨c, (b.withByte_of_edit edit).trans read, edited_of_set buffer⟩
  case twice =>
    intro i j v w m n x y first second
    constructor
    · intro differ
      rw [b.withByte_twice first second, b.withByte_twice second first, List.set_comm x y differ]
    · rintro rfl
      rw [b.withByte_twice first second, List.set_set, b.withByte_of_edit second]

/-- The last byte, from either end, and a place behind it. -/
theorem withByte_edits_sample :
    (∃ c, Sample.filled.withByte (.int (-1)) (.int 7) = .ok c ∧ Indistinct Sample.filled c) ∧
    (∃ c, Sample.filled.withByte (.bool true) (.int 255) = .ok c ∧
      c.statement = Sample.filled.statement ∧ ∀ k, k ≠ 0 → c.proof[k]? = Sample.filled.proof[k]?) ∧
    (∃ e, Sample.filled.withByte (.int 736) (.int 7) = .error e ∧
      (e.kind = .type ∨ e.kind = .index ∨ e.kind = .value)) ∧
    (Sample.filled.withByte (.int (-1)) (.int 7) >>= fun c => c.withByte (.int 735) (.int 8)) =
      Sample.filled.withByte (.int 735) (.int 8) := by
  obtain ⟨exists_iff, edited, refused, twice⟩ := withByte_edits Sample.filled
  have last : Edit (.int (-1)) (.int 7) 735 7 := ⟨by decide, Or.inr rfl, rfl⟩
  have again : Edit (.int 735) (.int 8) 735 8 := ⟨by decide, Or.inl rfl, rfl⟩
  have second : Edit (.bool true) (.int 255) 1 255 := ⟨by decide, Or.inl rfl, rfl⟩
  refine ⟨?last, ?second, refused _ _ ?behind, (twice _ _ _ _ _ _ _ _ last again).2 rfl⟩
  case last =>
    obtain ⟨c, read, changes⟩ := edited _ _ _ _ last
    exact ⟨c, read, changes.filling (by decide)⟩
  case second =>
    obtain ⟨c, read, changes⟩ := edited _ _ _ _ second
    obtain ⟨proof, _, statement⟩ := changes.proof (by decide)
    exact ⟨c, read, statement, proof⟩
  case behind =>
    rw [exists_iff]
    rintro ⟨i, n, index, _, _, high, _⟩
    cases index
    exact absurd high (by decide)

end Bundle

end ProofGate
