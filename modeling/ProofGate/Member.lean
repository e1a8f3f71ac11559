import ProofGate.Address

/-!
# Members

Readers for values of loose types: numbers below `2^256` given as integers, as text in any base
or as bytes, addresses given as text or as their twenty bytes, whole numbers in any form, and
the elements that a value runs through.
-/

namespace ProofGate.Member

/-- An integer before its range is checked; a truth value is none. -/
def integer (name : String) (v : Value) : Except Failure Int :=
  match v with
  | .int n => .ok n
  | .bytes bs => .ok (Int.ofNat (Bytes.natBE bs))
  | .text s =>
    match Literal.read .detected (Text.trim s) with
    | .ok n => .ok n
    | .error _ => .error (.badNumber name v)
  | v => .error (.badNumber name v)

def number (name : String) (v : Value) : Except Failure Nat := do
  let n ← integer name v
  if 0 ≤ n ∧ n < twoTo 256 then pure n.toNat else throw (.notWide name v)

def address [Address.CaseRule] (name : String) (v : Value) : Except Failure Address :=
  match v with
  | .bytes bs => if bs.length = 20 then .ok (Address.ofBytes bs) else .error (.notAddress name v)
  | .text s =>
    match Address.recognize? s with
    | some a => .ok a
    | none => .error (.notAddress name v)
  | v => .error (.notAddress name v)

/-- The integer that a value stands for: the integer part of a double, the number written in a
text or in ASCII bytes, the latter always in decimal. -/
def wholeNumber (base : Literal.Base) (v : Value) : Except Failure Int :=
  match v with
  | .bool b => .ok (if b then 1 else 0)
  | .int n => .ok n
  | .float x =>
    match x.truncate? with
    | some n => .ok n
    | none => .error (if x = .nan then .undefinedNumber else .infiniteNumber)
  | .text t => readNumber base v t.chars
  | .bytes bs => readNumber .decimal v (bs.map fun b => if b < 128 then Char.ofNat b.toNat else '?')
  | v => .error (.notNumber v)
where
  readNumber (base : Literal.Base) (v : Value) (cs : List Char) : Except Failure Int :=
    match Literal.readChars base cs with
    | .ok n => .ok n
    | .error .malformed => .error (.badLiteral base v)
    | .error (.tooLong count) => .error (.longLiteral count)

/-- The members of an object. -/
def ofValue (v : Value) : Except Failure (List (Text × Value)) :=
  match v with
  | .object ms => .ok ms
  | v => .error (.noMembers v)

/-- The values that a value runs through: items, points, names or bytes. -/
def elements (v : Value) : Except Failure (List Value) :=
  match v with
  | .list vs => .ok vs
  | .text t => .ok (t.map fun p => .text [p])
  | .object ms => .ok (ms.map fun m => .text m.1)
  | .bytes bs => .ok (bs.map fun b => .int b.toNat)
  | v => .error (.noElements v)

/-- The integer that a value is, where no other form will do. -/
def count (v : Value) : Except Failure Int :=
  match v.count? with
  | some n => .ok n
  | none => .error (.notInteger v)

/-- Those of a value whose length is asked first. -/
def sized (v : Value) : Except Failure (List Value) :=
  match elements v with
  | .ok vs => .ok vs
  | .error _ => .error (.noLength v)

end ProofGate.Member
