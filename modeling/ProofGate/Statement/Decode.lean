import ProofGate.Statement
import ProofGate.Statement.Digits

/-!
# Decoding statements

From words to the bytes of a statement, and from those to its members at the places that a
layout gives.
-/

namespace ProofGate.Statement

/-- The bytes without the last `-total` of them if the total is negative, else the first
`total`. -/
def firstBytes (data : Bytes) (total : Int) : Bytes :=
  if 0 ≤ total then data.take total.toNat else data.take (data.length + total).toNat

/-- Words joined and cut to a length that they have to reach. -/
def joinWords (words : List Bytes) (total : Int) : Except Failure Bytes :=
  let data := words.flatten
  if Int.ofNat data.length < total then .error (.statementShort (.int total) data.length)
  else .ok (firstBytes data total)

/-- Words of 32 bytes, the last one filled up with zeros. -/
def splitWords (data : Bytes) : List Bytes :=
  (data.chunks 32).map (Bytes.padTo 32)

def byteAt (data : Bytes) (offset : Int) : Except Failure Nat :=
  match data[offset.toNat]? with
  | some b => .ok b.toNat
  | none => .error .byteOutside

def decode (data : Bytes) (l : Layout) : Except Failure Statement := do
  let place (f : Field) : Int := (l.span f).offset
  if Int.ofNat data.length ≠ l.total then throw (.statementSize l.total data.length)
  let blockNumber ← Digits.element data (place .blockNumber)
  let range ← Digits.element data (place .range)
  let minBlock ← Digits.direct data (place .minBlock)
  let maxBlock ← Digits.direct data (place .maxBlock)
  let contract ← Digits.address data (place .contract)
  let user ← Digits.address data (place .user)
  let mappingSlot ← Digits.element data (place .mappingSlot)
  let mappingSlotLength ← Digits.element data (place .mappingSlotLength)
  let nftIds ← Digits.directs data (l.span .nftIds).digitOffsets
  let blockHash ← Digits.hash data (place .blockHash)
  let rewardsRate ← Digits.amount data (place .rewardsRate)
  let erc20Result ← Digits.amount data (place .erc20Result)
  let identifier ← byteAt data l.identifierOffset
  pure
    { minBlock, maxBlock, identifier, blockHash, rewardsRate, erc20Result, blockNumber, range
      mappingSlot, mappingSlotLength
      contract := contract.checksum
      user := user.checksum
      nftIds := nftIds.map Int.ofNat }

end ProofGate.Statement
