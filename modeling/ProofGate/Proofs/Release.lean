import ProofGate.Release
import ProofGate.Proofs.Guard
import ProofGate.Proofs.Statement.Reading
import ProofGate.Proofs.Value

/-!
# Values of a statement

The tag says which part of a statement is released: five ids for one tag, an amount for the other,
and nothing for any other number.
-/

namespace ProofGate.Release

/-- The values of a statement that asks by a tag: five ids, or the one amount. -/
def ofBuffer (tag : Int) (p : Bytes) : List ℕ :=
  if tag = 67 then Digits.listed p 128 5 else [Digits.joined p 296 8]

/-- The tag of a statement is one of the two. -/
def tags (tag : Int) (p : Bytes) : Guard where
  passes := tag == 67 || tag == 88
  failure := .unsupportedTag (.int tag)
  notes := ["Released " ++ Numeral.ofNat (ofBuffer tag p).length ++ " result value(s)"]

theorem tags_reject {tag : Int} {p : Bytes} :
    (tags tag p).passes = false ↔ tag ≠ 67 ∧ tag ≠ 88 := by
  simp [tags]

theorem values_eq {p : Bytes} (h : p.length = 368) (tag : Int) :
    values Layout.standard p (.int tag) =
      (Guard.verdict [tags tag p]).map fun _ => ofBuffer tag p := by
  have ids : Digits.directs p (Layout.standard.span .nftIds).digitOffsets =
      .ok (Digits.listed p 128 5) := by
    rw [Layout.standard_idOffsets, Digits.directs_inside (by omega)]
  have amount : Digits.amount p (Layout.standard.span .erc20Result).offset =
      .ok (Digits.joined p 296 8) := by
    rw [Layout.standard_offset]
    exact Digits.union_inside (by rw [Field.place]; omega)
  rw [values, Tag.ofNumber_int]
  by_cases nft : tag = 67
  · rw [if_pos nft, Guard.verdict_pass (by simp [tags, nft]), ofBuffer, if_pos nft]
    exact ids
  · by_cases erc20 : tag = 88
    · rw [if_neg nft, if_pos erc20, Guard.verdict_pass (by simp [tags, erc20]), ofBuffer,
        if_neg nft]
      dsimp only
      rw [amount]
      rfl
    · rw [if_neg nft, if_neg erc20, Guard.verdict_fail (by simp [tags, nft, erc20])]
      rfl

theorem ofBuffer_iff {n : ℕ} {p : Bytes} {values : List ℕ} :
    ((tags n p).passes = true ∧ values = ofBuffer n p) ↔
      n = 67 ∧ values = Digits.listed p 128 5 ∨ n = 88 ∧ values = [Digits.joined p 296 8] := by
  have nft : ((n : Int) = 67) ↔ n = 67 := by omega
  have erc20 : ((n : Int) = 88) ↔ n = 88 := by omega
  simp only [tags, ofBuffer, Bool.or_eq_true, beq_iff_eq, nft, erc20]
  constructor
  · rintro ⟨rfl | rfl, same⟩
    · exact Or.inl ⟨rfl, same⟩
    · exact Or.inr ⟨rfl, same⟩
  · rintro (⟨rfl, same⟩ | ⟨rfl, same⟩)
    · exact ⟨Or.inl rfl, same⟩
    · exact ⟨Or.inr rfl, same⟩

end ProofGate.Release
