import ProofGate.Member

/-!
# Words

The 32-byte words that bundles are made of, and the loose forms in which words and byte strings
are handed over: numbers, hexadecimal text and bytes.
-/

namespace ProofGate.Word

def length : Nat := 32

/-- The fewest bytes that hold a number; zero takes one. -/
def shortest (n : Nat) : Bytes :=
  if n < 256 then [UInt8.ofNat n]
  else shortest (n / 256) ++ [UInt8.ofNat n]
termination_by n

/-- The bytes that a value stands for: itself, hexadecimal text, or a number in the fewest
bytes. -/
def looseBytes (v : Value) : Except Failure Bytes :=
  match v with
  | .bytes bs => .ok bs
  | .bool b => .ok [if b then 1 else 0]
  | .int n => if n < 0 then .error (.negativeBytes n) else .ok (shortest n.toNat)
  | .text s =>
    match Hex.read s with
    | .ok bs => .ok bs
    | .error fault => .error (.hexText fault)
  | v => .error (.notLooseBytes v)

/-- A number as a word. -/
def ofInt (index : Nat) (n : Int) : Except Failure Bytes :=
  if 0 ≤ n ∧ n < twoTo 256 then .ok (Bytes.ofNatBE length n.toNat) else .error (.wordRange index)

/-- Bytes as a word. Only the last word of a bundle may be short; it is filled up with zeros. -/
def ofBytes (index : Nat) (isLast : Bool) (bs : Bytes) : Except Failure Bytes :=
  if bs.length = length then .ok bs
  else if isLast ∧ bs ≠ [] ∧ bs.length < length then .ok (bs.padTo length)
  else .error (.wordSize index bs.length)

def ofValue (index : Nat) (isLast : Bool) (v : Value) : Except Failure Bytes :=
  match v with
  | .bool b => ofInt index (if b then 1 else 0)
  | .int n => ofInt index n
  | v =>
    match looseBytes v with
    | .ok bs => ofBytes index isLast bs
    | .error e => .error (.wordUnreadable index e)

/-- Words from an index on; `endsList` says whether the last of them may be short. -/
def ofValues (endsList : Bool) (index : Nat) : List Value → Except Failure (List Bytes)
  | [] => .ok []
  | v :: vs => do
    let w ← ofValue index (endsList && vs.isEmpty) v
    let ws ← ofValues endsList (index + 1) vs
    pure (w :: ws)

end ProofGate.Word
