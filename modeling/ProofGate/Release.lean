import ProofGate.Layout
import ProofGate.Statement.Digits
import ProofGate.Tag

/-!
# Release

The values that a verified statement releases: the ids of a token query, or the one amount of an
aggregate query.
-/

namespace ProofGate.Release

def values (l : Layout) (statement : Bytes) (identifier : Value) : Except Failure (List Nat) :=
  match Tag.ofNumber? identifier with
  | some .nft => Digits.directs statement (l.span .nftIds).digitOffsets
  | some .erc20 => do
    let amount ← Digits.amount statement (l.span .erc20Result).offset
    pure [amount]
  | none => .error (.unsupportedTag identifier)

end ProofGate.Release
