import ProofGate.Bytes
import ProofGate.Text

/-!
# UTF-8

Encoding and strict decoding. A fault names the bytes that cannot begin or continue a character: one
byte that starts none, the bytes of a character up to one that does not belong to it, or all that is
left when the text ends within a character.
-/

namespace ProofGate.Utf8

inductive Reason where
  | start
  | continuation
  | ended
deriving Repr, DecidableEq

/-- The faulty bytes stand from `start` up to and without `stop`; the first of them is `byte`. -/
structure Fault where
  start : Nat
  stop : Nat
  byte : Nat
  reason : Reason
deriving Repr, DecidableEq

/-- The bytes of a point. Those of a half follow the same scheme, though no reader takes them. -/
def encodePoint (p : Point) : Bytes :=
  let n := p.code
  let tail (weight : Nat) : UInt8 := UInt8.ofNat (0x80 + n / weight % 64)
  if n < 0x80 then [UInt8.ofNat n]
  else if n < 0x800 then [UInt8.ofNat (0xC0 + n / 64), tail 1]
  else if n < 0x10000 then [UInt8.ofNat (0xE0 + n / 4096), tail 64, tail 1]
  else [UInt8.ofNat (0xF0 + n / 262144), tail 4096, tail 64, tail 1]

def encode (t : Text) : Bytes :=
  t.flatMap encodePoint

def isTail (b : UInt8) : Bool :=
  0x80 ≤ b && b < 0xC0

/-- How many bytes follow a first byte, and the bounds of the second. -/
def shape? (b : UInt8) : Option (Nat × UInt8 × UInt8) :=
  if b < 0x80 then some (0, 0, 0)
  else if 0xC2 ≤ b && b < 0xE0 then some (1, 0x80, 0xBF)
  else if b == 0xE0 then some (2, 0xA0, 0xBF)
  else if b == 0xED then some (2, 0x80, 0x9F)
  else if 0xE1 ≤ b && b < 0xF0 then some (2, 0x80, 0xBF)
  else if b == 0xF0 then some (3, 0x90, 0xBF)
  else if 0xF1 ≤ b && b < 0xF4 then some (3, 0x80, 0xBF)
  else if b == 0xF4 then some (3, 0x80, 0x8F)
  else none

/-- The code of a character of `1 + tails` bytes. -/
def code (first : UInt8) (tails : Bytes) : Nat :=
  let head := match tails.length with
    | 0 => first.toNat
    | 1 => first.toNat % 32
    | 2 => first.toNat % 16
    | _ => first.toNat % 8
  tails.foldl (fun n b => n * 64 + b.toNat % 64) head

/-- The first character after `first`, and the count of the bytes that follow it; or the reason
and the count of bytes at fault. -/
def next (first : UInt8) (rest : Bytes) : Except (Reason × Nat) (Char × Nat) :=
  match shape? first with
  | none => .error (.start, 1)
  | some (count, low, high) =>
    let tails := rest.take count
    match tails with
    | [] => if count = 0 then .ok (Char.ofNat first.toNat, 0) else .error (.ended, 1)
    | second :: more =>
      if second < low || high < second then .error (.continuation, 1)
      else
        let good := (more.takeWhile isTail).length
        if good < more.length then .error (.continuation, good + 2)
        else if tails.length < count then .error (.ended, tails.length + 1)
        else .ok (Char.ofNat (code first tails), count)

def decodeFrom (pos : Nat) (bs : Bytes) (done : List Char) : Except Fault (List Char) :=
  match bs with
  | [] => .ok done.reverse
  | first :: rest =>
    match next first rest with
    | .error (reason, count) => .error ⟨pos, pos + count, first.toNat, reason⟩
    | .ok (c, count) => decodeFrom (pos + 1 + count) (rest.drop count) (c :: done)
termination_by bs.length
decreasing_by simp only [List.length_drop, List.length_cons]; omega

def decode (bs : Bytes) : Except Fault Text :=
  (decodeFrom 0 bs []).map Text.ofChars

end ProofGate.Utf8
