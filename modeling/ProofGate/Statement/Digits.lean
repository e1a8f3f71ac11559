import ProofGate.Address

/-!
# Digits

A digit is the four low bytes of an element of eight. It is read directly, the first byte
weighing least, or left padded, the first byte weighing most; longer numbers are put together
from digits that stand eight bytes apart.
-/

namespace ProofGate.Digits

/-- The four bytes of a digit. -/
def bytesAt (data : Bytes) (offset : Int) : Except Failure Bytes :=
  if 0 ≤ offset ∧ offset + 4 ≤ data.length then .ok (data.cut offset.toNat 4)
  else .error (.digitOutside (.int offset) data.length)

def direct (data : Bytes) (offset : Int) : Except Failure Nat :=
  (bytesAt data offset).map Bytes.natLE

def leftPadded (data : Bytes) (offset : Int) : Except Failure Nat :=
  (bytesAt data offset).map Bytes.natBE

/-- The number of `count` left padded digits, the first weighing most. -/
def assemble (data : Bytes) (offset : Int) : Nat → Except Failure Nat
  | 0 => .ok 0
  | count + 1 => do
    let high ← leftPadded data offset
    let low ← assemble data (offset + 8) count
    pure (high <<< (32 * count) ||| low)

/-- The bits set in any of `count` direct digits: digits are joined without being shifted. -/
def union (data : Bytes) (offset : Int) : Nat → Except Failure Nat
  | 0 => .ok 0
  | count + 1 => do
    let first ← direct data offset
    let rest ← union data (offset + 8) count
    pure (first ||| rest)

/-- An account id in five digits. -/
def address (data : Bytes) (offset : Int) : Except Failure Address :=
  (assemble data offset 5).map Address.ofNat

/-- A hash in eight digits. -/
def hash (data : Bytes) (offset : Int) : Except Failure Nat :=
  assemble data offset 8

/-- An amount in eight digits, of which circuits fill only the first. -/
def amount (data : Bytes) (offset : Int) : Except Failure Nat :=
  union data offset 8

/-- A whole element, the first byte weighing least. -/
def element (data : Bytes) (offset : Int) : Except Failure Nat :=
  if 0 ≤ offset ∧ offset + 8 ≤ data.length then .ok (data.cut offset.toNat 8).natLE
  else .error (.elementOutside (.int offset) data.length)

/-- Direct digits at several places. -/
def directs (data : Bytes) : List Int → Except Failure (List Nat)
  | [] => .ok []
  | offset :: rest => do
    let n ← direct data offset
    let ns ← directs data rest
    pure (n :: ns)

end ProofGate.Digits
