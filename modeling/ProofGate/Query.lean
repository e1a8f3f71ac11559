import ProofGate.Member
import ProofGate.Tag

/-!
# Queries

What a caller expects a bundle to answer: whose tokens of which contract, in which blocks and
under which block hash, and by which tag. The client address is for the caller's own use.
-/

namespace ProofGate

structure Query where
  contract : Address
  user : Address
  client : Address
  minBlock : BitVec 32
  maxBlock : BitVec 32
  blockHash : BitVec 256
  rewardsRate : BitVec 256
  identifier : BitVec 256
deriving DecidableEq, Repr

namespace Query

/-! ## Reading -/

def block (name : String) (v : Value) : Except Failure (BitVec 32) := do
  let n ← Member.number name v
  if n < twoTo 32 then pure (BitVec.ofNat 32 n) else throw (.notBlock name n)

def wide (name : String) (v : Value) : Except Failure (BitVec 256) := do
  let n ← Member.number name v
  pure (BitVec.ofNat 256 n)

/-- The number behind a tag's name; any other value stays. -/
def resolveTag (v : Value) : Value :=
  match v with
  | .text s =>
    match Tag.ofName? s with
    | some t => .int t.code
    | none => v
  | v => v

/-- The members of a query, each as handed over. -/
structure Draft where
  contract : Value
  user : Value
  client : Value
  minBlock : Value
  maxBlock : Value
  blockHash : Value
  rewardsRate : Value
  identifier : Value

def Draft.check [Address.CaseRule] (d : Draft) : Except Failure Query := do
  let contract ← Member.address "contract_address" d.contract
  let user ← Member.address "user_address" d.user
  let client ← Member.address "client_address" d.client
  let minBlock ← block "min_block_number" d.minBlock
  let maxBlock ← block "max_block_number" d.maxBlock
  let blockHash ← wide "block_hash" d.blockHash
  let rewardsRate ← wide "rewards_rate" d.rewardsRate
  let identifier ← wide "identifier" (resolveTag d.identifier)
  pure { contract, user, client, minBlock, maxBlock, blockHash, rewardsRate, identifier }

/-- Picks the members of a query: the client is the user and the rate zero unless given. -/
def draft (ms : List (Text × Value)) : Except Failure Draft := do
  let need (name : String) : Except Failure Value :=
    match Value.find? ms name with
    | some v => .ok v
    | none => .error (.queryMemberMissing name)
  let contract ← need "contract_address"
  let user ← need "user_address"
  let minBlock ← need "min_block_number"
  let maxBlock ← need "max_block_number"
  let blockHash ← need "block_hash"
  let identifier ← need "identifier"
  let client := (Value.find? ms "client_address").getD user
  let rewardsRate := (Value.find? ms "rewards_rate").getD (.int 0)
  pure { contract, user, client, minBlock, maxBlock, blockHash, rewardsRate, identifier }

def ofMembers [Address.CaseRule] (ms : List (Text × Value)) : Except Failure Query := do
  (← draft ms).check

def ofValue [Address.CaseRule] (v : Value) : Except Failure Query := do
  ofMembers (← Member.ofValue v)

/-! ## Writing -/

def hashText (n : Nat) : Text :=
  Hex.marked (Bytes.ofNatBE 32 n)

def toMembers (q : Query) : List (Text × Value) :=
  [("contract_address", .text q.contract.checksum),
    ("user_address", .text q.user.checksum),
    ("client_address", .text q.client.checksum),
    ("min_block_number", .int q.minBlock.toNat),
    ("max_block_number", .int q.maxBlock.toNat),
    ("block_hash", .text (hashText q.blockHash.toNat)),
    ("rewards_rate", .int q.rewardsRate.toNat),
    ("identifier", .int q.identifier.toNat)]

def toValue (q : Query) : Value :=
  .object q.toMembers

end Query

end ProofGate
