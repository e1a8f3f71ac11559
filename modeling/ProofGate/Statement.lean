import ProofGate.Query
import ProofGate.Statement.Sketch

/-!
# Statements

What a proof says: the public inputs that its circuit commits to, as numbers and address texts.
A statement that was decoded or read from checked members has numbers in range and addresses in
checksum form.
-/

namespace ProofGate

structure Statement where
  minBlock : Int
  maxBlock : Int
  contract : Text
  user : Text
  identifier : Int
  nftIds : List Int
  blockHash : Int
  rewardsRate : Int
  erc20Result : Int
  blockNumber : Int
  range : Int
  mappingSlot : Int
  mappingSlotLength : Int
deriving DecidableEq, Repr

namespace Statement

/-- The members of a statement without the knowledge of what they are. -/
def sketch (s : Statement) : Sketch :=
  { minBlock := .int s.minBlock
    maxBlock := .int s.maxBlock
    contract := .text s.contract
    user := .text s.user
    identifier := .int s.identifier
    nftIds := s.nftIds.map Value.int
    blockHash := .int s.blockHash
    rewardsRate := .int s.rewardsRate
    erc20Result := .int s.erc20Result
    blockNumber := .int s.blockNumber
    range := .int s.range
    mappingSlot := .int s.mappingSlot
    mappingSlotLength := .int s.mappingSlotLength }

/-! ## Reading -/

/-- The numbers among the members, in the order of their checks. -/
def numberNames : List String :=
  ["min_block_number", "max_block_number", "block_hash", "rewards_rate", "erc20_result",
    "block_number", "range", "mapping_slot", "mapping_slot_length"]

/-- The numbers without which there is no statement. -/
def requiredNumbers : List String :=
  ["min_block_number", "max_block_number"]

/-- The numbers that are there, each checked. -/
def readNumbers (ms : List (Text × Value)) : List String → Except Failure (List (String × Int))
  | [] => .ok []
  | name :: names =>
    match Value.find? ms name with
    | none => readNumbers ms names
    | some v => do
      let n ← Member.number name v
      let rest ← readNumbers ms names
      pure ((name, Int.ofNat n) :: rest)

def need (ms : List (Text × Value)) (name : String) : Except Failure Value :=
  match Value.find? ms name with
  | some v => .ok v
  | none => .error (.statementMemberMissing name)

def readIds : List Value → Except Failure (List Int)
  | [] => .ok []
  | v :: vs => do
    let n ← Member.number "nft_ids" v
    let rest ← readIds vs
    pure (Int.ofNat n :: rest)

/-- A statement from its members: numbers left out are zero, and the ids five zeros. -/
def ofMembers [Address.CaseRule] (ms : List (Text × Value)) : Except Failure Statement := do
  let numbers ← readNumbers ms numberNames
  let contract ← Member.address "contract_address" (← need ms "contract_address")
  let user ← Member.address "user_address" (← need ms "user_address")
  let tag ← Tag.parse (← need ms "identifier")
  let nftIds ← match Value.find? ms "nft_ids" with
    | none => pure (List.replicate Layout.idsInBundle 0)
    | some v => do readIds (← Member.elements v)
  let missing := requiredNumbers.filter fun name => (numbers.lookup name).isNone
  if !missing.isEmpty then throw (.argumentsMissing missing)
  let number (name : String) : Int := (numbers.lookup name).getD 0
  pure
    { minBlock := number "min_block_number"
      maxBlock := number "max_block_number"
      contract := contract.checksum
      user := user.checksum
      identifier := Int.ofNat tag.code
      nftIds
      blockHash := number "block_hash"
      rewardsRate := number "rewards_rate"
      erc20Result := number "erc20_result"
      blockNumber := number "block_number"
      range := number "range"
      mappingSlot := number "mapping_slot"
      mappingSlotLength := number "mapping_slot_length" }

/-- A statement described by an object of members. -/
def ofValue [Address.CaseRule] (v : Value) : Except Failure Statement :=
  match v with
  | .object ms => ofMembers ms
  | .list _ => .error (.noMembers v)
  | .text _ => .error (.noMembers v)
  | v => .error (.noNames v)

/-! ## Writing -/

def toMembers (s : Statement) : Except Failure (List (Text × Value)) :=
  s.sketch.toMembers

def toValue (s : Statement) : Except Failure Value :=
  s.sketch.toValue

end Statement

end ProofGate
