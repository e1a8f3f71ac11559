import ProofGate.Failure
import ProofGate.Keccak

/-!
# Addresses

A 160-bit account id. It is written as `0x` and forty digits, of which a letter is a capital
where the digest of the small-letter text says so; it is read from forty digits of either case
with or without a mark. To be recognised as an address a text may have to do more: where letters
of both cases are held against the checksum, a text that has both is the checksum text itself.
-/

namespace ProofGate

structure Address where
  bits : BitVec 160
deriving DecidableEq, Repr

namespace Address

def ofNat (n : Nat) : Address :=
  ⟨BitVec.ofNat 160 n⟩

def toBytes (a : Address) : Bytes :=
  Bytes.ofNatBE 20 a.bits.toNat

def ofBytes (bs : Bytes) : Address :=
  ofNat (Bytes.natBE bs)

/-! ## Writing -/

/-- Raises the letters whose nibble in the digest is eight or more. -/
def raise (nibbles : List Nat) (ds : List Char) : List Char :=
  ds.zipWith (fun d n => if 8 ≤ n then d.toUpper else d) nibbles

def nibbles (bs : Bytes) : List Nat :=
  bs.flatMap fun b => [b.toNat / 16, b.toNat % 16]

/-- The forty digits with the capitals of the checksum. -/
def checksumDigits (a : Address) : List Char :=
  let ds := Hex.digits a.toBytes
  raise (nibbles (Keccak.digest (ds.map fun c => UInt8.ofNat c.toNat))) ds

def checksum (a : Address) : Text :=
  Text.ofChars ('0' :: 'x' :: a.checksumDigits)

/-! ## Reading -/

def ofDigits? (ds : List Char) : Option Address :=
  if ds.length = 40 then (Hex.pairs? ds).map ofBytes else none

/-- Forty digits of either case, with or without a mark. -/
def ofText? (t : Text) : Option Address :=
  ofDigits? (Text.chars (Hex.dropMark t))

/-- Reads a text that has to be an address, telling a text that is not hexadecimal at all from
one of another form. -/
def normalizeText (t : Text) : Except Failure Address :=
  let body := Text.chars (Hex.dropMark t)
  if body.all Hex.isDigit then
    match ofDigits? body with
    | some a => .ok a
    | none =>
      .error (.addressForm (.text t) (Text.ofChars ('0' :: 'x' :: body.map Char.toLower)))
  else .error (.addressNotHex t)

/-- Reads a number whose hexadecimal form has to be an address. -/
def normalizeInt (v : Value) (n : Int) : Except Failure Address :=
  let a? : Option Address := match n with
    | .ofNat n => ofDigits? (Numeral.digits 16 n)
    | .negSucc _ => none
  match a? with
  | some a => .ok a
  | none => .error (.addressForm v (Numeral.hexInt n))

/-- Reads a value of any form that has to be an address. -/
def normalize (v : Value) : Except Failure Address :=
  match v with
  | .text t => normalizeText t
  | .bytes bs =>
    if bs.length = 20 then .ok (ofBytes bs) else .error (.addressForm v (Hex.marked bs))
  | v =>
    match v.count? with
    | some n => normalizeInt v n
    | none => .error (.addressKind v)

/-! ## Recognising -/

/-- What letters of both cases in one text say of it: nothing, or the checksum. Libraries that
recognise addresses differ in this, so all that asks one of them is defined for either rule. -/
class inductive CaseRule where
  | any
  | checksum

/-- Whether small letters and capitals do not stand side by side; there may be no letters. -/
def isUniform (ds : List Char) : Bool :=
  (ds.all fun c => !c.isUpper) || ds.all fun c => !c.isLower

/-- Whether the letters of a text that spells an address are as the rule has them. -/
def allows [rule : CaseRule] (t : Text) (a : Address) : Bool :=
  match rule with
  | .any => true
  | .checksum => isUniform (Text.chars (Hex.dropMark t)) || t == a.checksum

/-- The address that a text is recognised as. -/
def recognize? [CaseRule] (t : Text) : Option Address :=
  (ofText? t).filter (allows t)

/-- Checks an address given on its own, before anything else is known of it. -/
def validate [CaseRule] (name : Text) (given : Value) : Except Failure Address :=
  match given with
  | .text t =>
    if t.isEmpty then .error (.addressEmpty name)
    else
      match recognize? t with
      | some a => .ok a
      | none => .error (.addressUnknown name t)
  | _ => .error (.addressEmpty name)

end Address

end ProofGate
