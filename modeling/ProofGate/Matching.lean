import ProofGate.Statement

/-!
# Matching

Member by member equality of a query and a proved statement, in a fixed order, the identifier
last. The rewards rate is part of aggregate queries only.
-/

namespace ProofGate.Matching

/-- Equality of one member: numbers by what they count, all else by kind. -/
def member (field : Checked) (expected actual : Value) : Except Failure Unit :=
  if expected.sameKey actual then .ok ()
  else .error (.fieldMismatch (some field) expected actual)

def checkSketch (s : Sketch) (q : Query) : Except Failure Unit := do
  member .minBlock (.int q.minBlock.toNat) s.minBlock
  member .maxBlock (.int q.maxBlock.toNat) s.maxBlock
  member .contract (.text q.contract.checksum) s.contract
  member .user (.text q.user.checksum) s.user
  member .blockHash (.int q.blockHash.toNat) s.blockHash
  if Tag.ofNumber? s.identifier = some .erc20 then
    member .rewardsRate (.int q.rewardsRate.toNat) s.rewardsRate
  member .identifier (.int q.identifier.toNat) s.identifier

def check (s : Statement) (q : Query) : Except Failure Unit :=
  checkSketch s.sketch q

end ProofGate.Matching
