/-!
# Numerals

Numbers written in a base, the most significant digit first. Decimal text has no mark; a
hexadecimal one begins with `0x`, after the sign. Writing has no limit on the digits, unlike reading.
-/

namespace ProofGate.Numeral

/-- The digit sign of a value below 36, in lower case. -/
def digit (d : Nat) : Char :=
  if d < 10 then Char.ofNat (48 + d) else Char.ofNat (87 + d)

/-- The digits of a number in a base of at least two. -/
def digits (base n : Nat) : List Char :=
  if _h : n < base ∨ base < 2 then [digit n]
  else digits base (n / base) ++ [digit (n % base)]
termination_by n
decreasing_by
  have : 2 ≤ base := by omega
  exact Nat.div_lt_self (by omega) this

/-- Zeros in front up to a width. -/
def padded (base width n : Nat) : List Char :=
  let ds := digits base n
  List.replicate (width - ds.length) '0' ++ ds

def ofNat (n : Nat) : String :=
  String.ofList (digits 10 n)

def ofInt : Int → String
  | .ofNat n => ofNat n
  | .negSucc n => "-" ++ ofNat (n + 1)

def hexNat (n : Nat) : String :=
  "0x" ++ String.ofList (digits 16 n)

def hexInt : Int → String
  | .ofNat n => hexNat n
  | .negSucc n => "-" ++ hexNat (n + 1)

end ProofGate.Numeral
