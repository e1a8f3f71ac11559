import ProofGate.Number.Numeral
import ProofGate.Text.Blank
import ProofGate.Text.DecimalDigit

/-!
# Integer literals

Reading integers from text: blanks around, a sign, digits of any script with single underscores
between them. A literal is decimal, or its base is detected from a mark `0x`, `0o` or `0b`; an
unmarked one then begins with zero only if it is zero.
-/

namespace ProofGate.Literal

inductive Base where
  | decimal
  | detected
deriving Repr, DecidableEq

inductive Fault where
  | malformed
  | tooLong (count : Nat)
deriving Repr, DecidableEq

/-- A decimal literal has at most this many digits. The limit is one of reading: numbers of any length
are written (`Numeral.ofInt`). -/
def maxDigits : Nat := 4300

/-- The ASCII digit for a digit of another script; any other character stays. -/
def plainDigit (c : Char) : Char :=
  if c.toNat < 128 then c
  else match Text.decimalValue? c with
    | some d => Numeral.digit d
    | none => c

def digitValue? (c : Char) : Option Nat :=
  if '0' ≤ c ∧ c ≤ '9' then some (c.toNat - 48)
  else if 'a' ≤ c ∧ c ≤ 'z' then some (c.toNat - 87)
  else if 'A' ≤ c ∧ c ≤ 'Z' then some (c.toNat - 55)
  else none

/-- Digits of a base and the characters after them, or nothing if an underscore stands alone. -/
def scan? (base : Nat) (digitDue : Bool) : List Char → Option (List Nat × List Char)
  | [] => if digitDue then none else some ([], [])
  | c :: cs =>
    match (digitValue? c).filter (· < base) with
    | some d => (scan? base false cs).map fun r => (d :: r.1, r.2)
    | none =>
      if digitDue then none
      else if c = '_' then scan? base true cs
      else some ([], c :: cs)

def ofDigits (base : Nat) (ds : List Nat) : Nat :=
  ds.foldl (fun n d => n * base + d) 0

def ofScan (limited : Bool) (base : Nat) (cs : List Char) : Except Fault Nat :=
  match scan? base true cs with
  | none => .error .malformed
  | some (ds, rest) =>
    if limited && maxDigits < ds.length then .error (.tooLong ds.length)
    else if rest.isEmpty then .ok (ofDigits base ds)
    else .error .malformed

/-- Digits behind a mark, which one underscore may separate from it. -/
def ofMarked (base : Nat) : List Char → Except Fault Nat
  | '_' :: cs => ofScan false base cs
  | cs => ofScan false base cs

def unsigned (base : Base) (cs : List Char) : Except Fault Nat :=
  match base, cs with
  | .decimal, cs => ofScan true 10 cs
  | .detected, '0' :: m :: cs =>
    if m = 'x' ∨ m = 'X' then ofMarked 16 cs
    else if m = 'o' ∨ m = 'O' then ofMarked 8 cs
    else if m = 'b' ∨ m = 'B' then ofMarked 2 cs
    else do
      let n ← ofScan true 10 ('0' :: m :: cs)
      if n = 0 then pure 0 else throw .malformed
  | .detected, cs => ofScan true 10 cs

def readChars (base : Base) (cs : List Char) : Except Fault Int :=
  match (Text.trimEnds Text.isNumeralBlank cs).map plainDigit with
  | '-' :: cs => (unsigned base cs).map fun n => -Int.ofNat n
  | '+' :: cs => (unsigned base cs).map Int.ofNat
  | cs => (unsigned base cs).map Int.ofNat

def read (base : Base) (t : Text) : Except Fault Int :=
  readChars base t.chars

end ProofGate.Literal
