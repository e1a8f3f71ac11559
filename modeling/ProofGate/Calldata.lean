import ProofGate.Bundle.Parse
import ProofGate.Query

/-!
# Call data

The arguments and the result of the verifying contract's entry point as bytes. Arguments stand
in a head of 32-byte words; a list stands behind the head, at the place its head word points to,
as its length and its items. Reading is strict: words have to be there, the bytes above a short
number have to be zero, and the pointer has to point behind the head words and into the data.
Bytes that nothing points to are ignored.
-/

namespace ProofGate.Calldata

/-! ## Words -/

def wordOf (n : Nat) : Bytes :=
  Bytes.ofNatBE 32 n

/-- The word at a place. -/
def wordAt (data : Bytes) (place : Nat) : Except Failure Bytes :=
  let w := data.cut place 32
  if w.length = 32 then .ok w else .error (.shortData 32 w.length)

/-- A number of `width` bytes in a word whose other bytes are zero. -/
def narrowAt (width : Nat) (data : Bytes) (place : Nat) : Except Failure Nat := do
  let w ← wordAt data place
  let padding := w.take (32 - width)
  if padding.all (· == 0) then pure (Bytes.natBE (w.drop (32 - width)))
  else throw (.dirtyPadding padding)

/-- The pointer in the first word, behind `least` bytes and before the end. -/
def pointer (least : Nat) (data : Bytes) : Except Failure Nat := do
  let p := (← wordAt data 0).natBE
  if least ≤ p ∧ p < data.length then pure p else throw (.badPointer 0)

def wordsFrom (data : Bytes) (place : Nat) : Nat → Except Failure (List Bytes)
  | 0 => .ok []
  | count + 1 => do
    let w ← wordAt data place
    let ws ← wordsFrom data (place + 32) count
    pure (w :: ws)

/-- The list at a place: its length, then its items. -/
def listAt (data : Bytes) (place : Nat) : Except Failure (List Bytes) := do
  let count := (← wordAt data place).natBE
  wordsFrom data (place + 32) count

/-- A list behind a pointer to it, the head having `head` bytes. -/
def listWords (items : List Bytes) : Bytes :=
  wordOf items.length ++ items.flatten

/-! ## Arguments -/

def signature : String :=
  "processQuery(bytes32[],(address,address,address,uint32,uint32,bytes32,uint256,uint8))"

def selector : Bytes :=
  (Keccak.digest (Utf8.encode signature)).take 4

/-- The eight words of a query. -/
def queryWords (q : Query) : List Bytes :=
  [wordOf q.contract.bits.toNat, wordOf q.user.bits.toNat, wordOf q.client.bits.toNat,
    wordOf q.minBlock.toNat, wordOf q.maxBlock.toNat, wordOf q.blockHash.toNat,
    wordOf q.rewardsRate.toNat, wordOf q.identifier.toNat]

/-- Calls with an identifier of more than one byte cannot be written. -/
def encode (b : Bundle) (q : Query) : Except Failure Bytes :=
  if q.identifier.toNat < 256 then
    .ok (selector ++ wordOf 288 ++ (queryWords q).flatten ++ listWords b.words)
  else .error .outOfBounds

def encodeText (b : Bundle) (q : Query) : Except Failure Text :=
  (encode b q).map Hex.marked

/-- The query in the eight words behind the pointer. -/
def queryAt (data : Bytes) : Except Failure Query := do
  let contract ← narrowAt 20 data 32
  let user ← narrowAt 20 data 64
  let client ← narrowAt 20 data 96
  let minBlock ← narrowAt 4 data 128
  let maxBlock ← narrowAt 4 data 160
  let blockHash ← narrowAt 32 data 192
  let rewardsRate ← narrowAt 32 data 224
  let identifier ← narrowAt 1 data 256
  pure
    { contract := .ofNat contract
      user := .ofNat user
      client := .ofNat client
      minBlock := .ofNat 32 minBlock
      maxBlock := .ofNat 32 maxBlock
      blockHash := .ofNat 256 blockHash
      rewardsRate := .ofNat 256 rewardsRate
      identifier := .ofNat 256 identifier }

/-- The words of the bundle and the query in the data behind the selector. -/
def arguments (data : Bytes) : Except Failure (List Bytes × Query) := do
  let p ← pointer 64 data
  let q ← queryAt data
  let ws ← listAt data p
  pure (ws, q)

def decode (call : Bytes) : Except Failure (Bundle × Query) := do
  if call.take 4 ≠ selector then throw (.wrongSelector (call.take 4))
  match arguments (call.drop 4) with
  | .error e => throw (.undecodable e)
  | .ok (ws, q) => do
    let b ← Bundle.ofWordList (ws.map Value.bytes)
    pure (b, q)

def ofValue (v : Value) : Except Failure (Bundle × Query) := do
  decode (← Word.looseBytes v)

/-! ## Result -/

def resultItem (v : Value) : Except Failure Bytes :=
  match v with
  | .int n => if 0 ≤ n ∧ n < twoTo 256 then .ok (wordOf n.toNat) else .error .outOfBounds
  | _ => .error .notEncodable

def resultItems : List Value → Except Failure (List Bytes)
  | [] => .ok []
  | v :: vs => do
    let w ← resultItem v
    let ws ← resultItems vs
    pure (w :: ws)

/-- Released values as the contract returns them. -/
def encodeResult (vs : List Value) : Except Failure Bytes := do
  let items ← resultItems vs
  pure (wordOf 32 ++ listWords items)

def encodeResultText (v : Value) : Except Failure Text := do
  let data ← encodeResult (← Member.elements v)
  pure (Hex.marked data)

def decodeResult (data : Bytes) : Except Failure (List Nat) := do
  let p ← pointer 32 data
  let ws ← listAt data p
  pure (ws.map Bytes.natBE)

def resultOf (v : Value) : Except Failure (List Nat) := do
  decodeResult (← Word.looseBytes v)

end ProofGate.Calldata
