import ProofGate.Bytes
import ProofGate.Number.Numeral
import ProofGate.Text

/-!
# Hexadecimal text

Bytes are written as two lower-case digits each. Reading takes digits of either case, an
optional `0x`, and puts one zero in front when the text has an odd length.
-/

namespace ProofGate.Hex

/-- What is wrong with a text: points beyond ASCII from `start` up to and without `stop`, of
which `first` is the first, or a character that is no digit. -/
inductive Fault where
  | notAscii (first : Point) (start stop : Nat)
  | notDigit
deriving Repr, DecidableEq

def ofByte (b : UInt8) : List Char :=
  [Numeral.digit (b.toNat / 16), Numeral.digit (b.toNat % 16)]

def digits (bs : Bytes) : List Char :=
  bs.flatMap ofByte

def encode (bs : Bytes) : Text :=
  Text.ofChars (digits bs)

/-- The digits behind a mark. -/
def marked (bs : Bytes) : Text :=
  Text.ofChars ('0' :: 'x' :: digits bs)

def value? (c : Char) : Option Nat :=
  if '0' ≤ c ∧ c ≤ '9' then some (c.toNat - 48)
  else if 'a' ≤ c ∧ c ≤ 'f' then some (c.toNat - 87)
  else if 'A' ≤ c ∧ c ≤ 'F' then some (c.toNat - 55)
  else none

def isDigit (c : Char) : Bool :=
  (value? c).isSome

/-- Two digits for each byte, nothing else. -/
def pairs? : List Char → Option Bytes
  | [] => some []
  | [_] => none
  | high :: low :: rest => do
    let h ← value? high
    let l ← value? low
    let bs ← pairs? rest
    pure (UInt8.ofNat (h * 16 + l) :: bs)

def dropMark : Text → Text
  | .char '0' :: .char 'x' :: rest => rest
  | .char '0' :: .char 'X' :: rest => rest
  | t => t

/-- The first run of points beyond ASCII. -/
def notAscii? (t : Text) : Option Fault :=
  let isPlain (p : Point) : Bool := p.code < 128
  match t.dropWhile isPlain with
  | [] => none
  | p :: rest =>
    let start := (t.takeWhile isPlain).length
    some (.notAscii p start (start + 1 + (rest.takeWhile fun p => !isPlain p).length))

def read (t : Text) : Except Fault Bytes :=
  let body := dropMark t
  let even := if t.length % 2 = 1 then .char '0' :: body else body
  match notAscii? even with
  | some fault => .error fault
  | none =>
    match pairs? (Text.chars even) with
    | some bs => .ok bs
    | none => .error .notDigit

end ProofGate.Hex
