import ProofGate.Layout
import ProofGate.Member

/-!
# Sketches

The members of a statement as they were handed over, before anything is known of them: a number
may be a truth value, a double or no number at all. A sketch can be shown, compared and written
as far as its members allow.
-/

namespace ProofGate

structure Sketch where
  minBlock : Value
  maxBlock : Value
  contract : Value
  user : Value
  identifier : Value
  nftIds : List Value
  blockHash : Value
  rewardsRate : Value
  erc20Result : Value
  blockNumber : Value
  range : Value
  mappingSlot : Value
  mappingSlotLength : Value

namespace Sketch

/-! ## Reading -/

/-- The members without which there is no sketch. -/
def required : List String :=
  ["min_block_number", "max_block_number", "contract_address", "user_address", "identifier"]

/-- Takes members as they are: those left out are zero, and the ids five zeros. -/
def ofMembers (ms : List (Text × Value)) : Except Failure Sketch := do
  match ms.find? fun m => (Field.ofName? m.1).isNone with
  | some m => throw (.argumentUnknown m.1)
  | none => pure ()
  let missing := required.filter fun (name : String) => (Value.find? ms name).isNone
  if !missing.isEmpty then throw (.argumentsMissing missing)
  let nftIds ← match Value.find? ms "nft_ids" with
    | some v => Member.elements v
    | none => pure (List.replicate Layout.idsInBundle (.int 0))
  let member (f : Field) : Value := (Value.find? ms f.name).getD (.int 0)
  pure
    { minBlock := member .minBlock
      maxBlock := member .maxBlock
      contract := member .contract
      user := member .user
      identifier := member .identifier
      nftIds
      blockHash := member .blockHash
      rewardsRate := member .rewardsRate
      erc20Result := member .erc20Result
      blockNumber := member .blockNumber
      range := member .range
      mappingSlot := member .mappingSlot
      mappingSlotLength := member .mappingSlotLength }

/-! ## Writing -/

/-- The 32 bytes of a hash, if it is an integer that has no more. -/
def hashBytes (v : Value) : Except Failure Bytes :=
  match v.count? with
  | some n =>
    if 0 ≤ n ∧ n < twoTo 256 then .ok (Bytes.ofNatBE 32 n.toNat) else .error .hashTooWide
  | none => .error (.noOperation v "to_bytes")

def toMembers (s : Sketch) : Except Failure (List (Text × Value)) := do
  let hash ← hashBytes s.blockHash
  pure
    [("block_number", s.blockNumber),
      ("range", s.range),
      ("min_block_number", s.minBlock),
      ("max_block_number", s.maxBlock),
      ("contract_address", s.contract),
      ("user_address", s.user),
      ("mapping_slot", s.mappingSlot),
      ("mapping_slot_length", s.mappingSlotLength),
      ("nft_ids", .list s.nftIds),
      ("block_hash", .text (Hex.marked hash)),
      ("rewards_rate", .text s.rewardsRate.bare),
      ("erc20_result", .text s.erc20Result.bare),
      ("identifier", s.identifier)]

def toValue (s : Sketch) : Except Failure Value :=
  s.toMembers.map Value.object

end Sketch

end ProofGate
