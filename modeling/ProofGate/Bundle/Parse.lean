import ProofGate.Bundle
import ProofGate.Json.Reader
import ProofGate.Statement.Decode

/-!
# Bundles from their wire forms

A list of words, a blob of bytes or its hexadecimal text, the three parts on their own, or an
object that holds one of these.
-/

namespace ProofGate.Bundle

/-- From words given as bytes, hexadecimal text or numbers. -/
def ofWordList (vs : List Value) : Except Failure Bundle := do
  check (← Word.ofValues true 0 vs)

def ofWords (v : Value) : Except Failure Bundle := do
  ofWordList (← Member.sized v)

/-- From a blob: words are cut off at 32 bytes, and the last one is filled up with zeros. -/
def ofBytes (data : Bytes) : Except Failure Bundle :=
  ofWordList ((data.chunks Word.length).map Value.bytes)

/-- From hexadecimal text, or another value that stands for bytes. -/
def ofHex (v : Value) : Except Failure Bundle := do
  ofBytes (← Word.looseBytes v)

/-- A byte among others: an integer of that range. -/
def byteOf (v : Value) : Except Failure UInt8 :=
  match v with
  | .bool b => .ok (if b then 1 else 0)
  | .int n => if 0 ≤ n ∧ n < 256 then .ok (UInt8.ofNat n.toNat) else .error (.byteRange false)
  | v => .error (.notInteger v)

def bytesOf : List Value → Except Failure Bytes
  | [] => .ok []
  | v :: vs => do
    let b ← byteOf v
    let bs ← bytesOf vs
    pure (b :: bs)

/-- More zero bytes than there is room for. -/
def tooMany : Int := twoTo 40

/-- That many zero bytes. -/
def blank (n : Int) : Except Failure Bytes :=
  if n < 0 then .error .negativeCount
  else if twoTo 63 - 34 < n then .error .countTooWide
  else if tooMany ≤ n then .error .noMemory
  else .ok (Bytes.zeros n.toNat)

/-- The byte string made of a value: its bytes, as many zeros as a number says, or the bytes that
a list or the names of an object are. -/
def blobOf (v : Value) : Except Failure Bytes :=
  match v with
  | .bytes bs => .ok bs
  | .bool b => blank (if b then 1 else 0)
  | .int n => blank n
  | .list vs => bytesOf vs
  | .object ms => bytesOf (ms.map fun m => .text m.1)
  | v => .error (.notBytes v)

def ofBlob (v : Value) : Except Failure Bundle := do
  ofBytes (← blobOf v)

/-- From the numbers of the proof, those of the inputs and the bytes of the statement. -/
def build (proof inputs statement : Value) : Except Failure Bundle := do
  let ps ← Member.sized proof
  if ps.length ≠ proofWords then throw (.proofSize proofWords ps.length)
  let xs ← Member.sized inputs
  if xs.length ≠ inputWords then throw (.inputsSize inputWords xs.length)
  let size := (← Member.sized statement).length
  if size ≠ Layout.bytesInBundle then throw (.statementSize Layout.bytesInBundle size)
  let head ← Word.ofValues false 0 ps
  let middle ← Word.ofValues false proofWords xs
  let data ← blobOf statement
  check (head ++ middle ++ Statement.splitWords data)

/-! ## Objects -/

/-- A text becomes the number it writes; any other value stays. -/
def elementOf (v : Value) : Except Failure Value :=
  match v with
  | .text s =>
    match Literal.read .detected s with
    | .ok n => .ok (.int n)
    | .error _ => .error (.badElement v)
  | v => .ok v

def elementsOf : List Value → Except Failure (List Value)
  | [] => .ok []
  | v :: vs => do
    let e ← elementOf v
    let es ← elementsOf vs
    pure (e :: es)

def need (ms : List (Text × Value)) (name : String) : Except Failure Value :=
  match Value.find? ms name with
  | some v => .ok v
  | none => .error (.bundleMemberMissing name)

/-- From an object with words, with a proof in hexadecimal, or with the three parts. -/
def ofMembers (ms : List (Text × Value)) : Except Failure Bundle :=
  match Value.find? ms "words", Value.find? ms "proof" with
  | some words, _ => ofWords words
  | none, some proof => ofHex proof
  | none, none => do
    let proof ← elementsOf (← Member.elements (← need ms "groth16_proof"))
    let inputs ← elementsOf (← Member.elements (← need ms "groth16_inputs"))
    let statement ← Word.looseBytes (← need ms "public_inputs")
    build (.list proof) (.list inputs) (.bytes statement)

def ofValue (v : Value) : Except Failure Bundle :=
  match v with
  | .object ms => ofMembers ms
  | .list _ => .error (.noMembers v)
  | .text _ => .error (.noMembers v)
  | v => .error (.noNames v)

/-! ## Edits -/

/-- Whether a number can be an index at all. -/
def isIndex (n : Int) : Bool :=
  -(twoTo 63 : Int) ≤ n && n < twoTo 63

/-- The bundle with one byte replaced; a negative index counts from the end. -/
def withByte (b : Bundle) (index value : Value) : Except Failure Bundle := do
  let data := b.toBuffer
  let size := Int.ofNat data.length
  let i ← Member.count index
  if !isIndex i then throw .indexTooWide
  let n ← Member.count value
  if n < 0 ∨ 256 ≤ n then throw (.byteRange true)
  let place := if i < 0 then i + size else i
  if place < 0 ∨ size ≤ place then throw .byteIndex
  ofBytes (data.set place.toNat (UInt8.ofNat n.toNat))

end ProofGate.Bundle
