import ProofGate.Statement

/-!
# Encoding statements

The bytes that a circuit commits to for given members. Each member is turned into elements,
which have to fill its span, and written at its place. A member that is no integer can be out of
range like any other; one that is in range cannot be written.
-/

namespace ProofGate.Sketch

/-- Whether a number lies in `[0, 2^width)`. -/
def fits (width : Nat) (x : Double) : Bool :=
  (Double.exact 0).le x && x.lt (.exact (twoTo width))

/-- One element for a number of 64 bits. -/
def element (v : Value) : Except Failure Bytes :=
  match v.count?, v.number? with
  | some n, _ =>
    if 0 ≤ n ∧ n < twoTo 64 then .ok (Bytes.ofNatLE 8 n.toNat) else .error (.elementTooWide v)
  | none, some x =>
    if fits 64 x then .error (.noOperation v "to_bytes") else .error (.elementTooWide v)
  | none, none => .error (.notCompared "<=" (.int 0) v)

def elements : List Value → Except Failure Bytes
  | [] => .ok []
  | v :: vs => do
    let first ← element v
    let rest ← elements vs
    pure (first ++ rest)

/-- Four bytes and four zeros for each digit of a byte string. -/
def leftPaddedElements (bs : Bytes) : Bytes :=
  (bs.chunks 4).flatMap fun digit => digit ++ Bytes.zeros 4

/-- Eight elements of 32 bits each, the least significant first. -/
def amountElements (v : Value) : Except Failure Bytes :=
  match v.count?, v.number? with
  | some n, _ =>
    if 0 ≤ n ∧ n < twoTo 256 then
      .ok ((List.range 8).flatMap fun i =>
        Bytes.ofNatLE 8 (n.toNat / twoTo (32 * i) % twoTo 32))
    else .error (.numberTooWide v)
  | none, some x =>
    if fits 256 x then .error (.notShiftable v) else .error (.numberTooWide v)
  | none, none => .error (.notCompared "<=" (.int 0) v)

/-- Writes elements into a span that they fill. -/
def writeSpan (s : Span) (piece : Bytes) (buffer : Bytes) : Except Failure Bytes :=
  if Int.ofNat piece.length = s.length then .ok (buffer.overwrite s.offset.toNat piece)
  else .error (.spanSize s.name s.length piece.length)

def addressElements (v : Value) : Except Failure Bytes := do
  let a ← Address.normalize v
  pure (leftPaddedElements a.toBytes)

/-- The elements of a field. -/
def fieldElements (s : Sketch) : Field → Except Failure Bytes
  | .blockNumber => element s.blockNumber
  | .range => element s.range
  | .minBlock => element s.minBlock
  | .maxBlock => element s.maxBlock
  | .contract => addressElements s.contract
  | .user => addressElements s.user
  | .mappingSlot => element s.mappingSlot
  | .mappingSlotLength => element s.mappingSlotLength
  | .nftIds => elements s.nftIds
  | .blockHash => (hashBytes s.blockHash).map leftPaddedElements
  | .rewardsRate => amountElements s.rewardsRate
  | .erc20Result => amountElements s.erc20Result
  | .identifier => element s.identifier

def writeFields (s : Sketch) (l : Layout) : List Field → Bytes → Except Failure Bytes
  | [], buffer => .ok buffer
  | f :: fs, buffer => do
    let piece ← s.fieldElements f
    let buffer ← writeSpan (l.span f) piece buffer
    writeFields s l fs buffer

/-- Refuses a block number of more than 32 bits; one below zero passes. -/
def checkBlock (field : Checked) (v : Value) : Except Failure Unit :=
  let checked (tooWide : Bool) : Except Failure Unit :=
    if tooWide then .error (.blockTooWide field) else .ok ()
  match v.count?, v.number? with
  | some n, _ => checked (decide (twoTo 32 ≤ n))
  | none, some x => checked ((Double.exact (twoTo 32 - 1)).lt x)
  | none, none => .error (.notCompared ">" v (.int (twoTo 32 - 1)))

/-- Refuses ids that do not lie in `[0, 2^32)`. -/
def checkIds : List Value → Except Failure Unit
  | [] => .ok ()
  | v :: vs =>
    match v.count?, v.number? with
    | some n, _ => if n < 0 ∨ twoTo 32 ≤ n then .error .idTooWide else checkIds vs
    | none, some x =>
      if (Double.exact 0).le x && x.le (.exact (twoTo 32 - 1)) then checkIds vs
      else .error .idTooWide
    | none, none => .error (.notCompared "<=" (.int 0) v)

/-- What has to hold before anything is written. -/
def checkRanges (s : Sketch) (l : Layout) : Except Failure Unit := do
  if Int.ofNat s.nftIds.length ≠ l.ids then throw (.idCount l.ids s.nftIds.length)
  checkBlock .minBlock s.minBlock
  checkBlock .maxBlock s.maxBlock
  checkIds s.nftIds

def encode (s : Sketch) (l : Layout) : Except Failure Bytes := do
  s.checkRanges l
  s.writeFields l Field.all (Bytes.zeros l.total.toNat)

end ProofGate.Sketch

namespace ProofGate.Statement

def encode (s : Statement) (l : Layout) : Except Failure Bytes :=
  s.sketch.encode l

end ProofGate.Statement
