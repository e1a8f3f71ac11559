import ProofGate.Number.Power

/-!
# Doubles

Binary floating point numbers of 53 bits, held exactly: a finite one is `mantissa · 2^exponent`
with a sign. Every operation rounds a ratio of integers to the nearest double, ties to the even
mantissa, so nothing depends on the machine's arithmetic.
-/

namespace ProofGate

inductive Double where
  | finite (negative : Bool) (mantissa : Nat) (exponent : Int)
  | infinite (negative : Bool)
  | nan
deriving Repr, DecidableEq

namespace Double

/-! ## Rounding -/

/-- A quotient rounded to the nearest integer, ties to the even one. -/
def roundDiv (num den : Nat) : Nat :=
  let q := num / den
  let twice := 2 * (num % den)
  if twice < den then q else if den < twice then q + 1 else q + q % 2

/-- Numerator and denominator of `num / den · 2^k`. -/
def shiftRatio (num den : Nat) (k : Int) : Nat × Nat :=
  match k with
  | .ofNat k => (num * twoTo k, den)
  | .negSucc k => (num, den * twoTo (k + 1))

/-- A finite number of the given parts, or infinity from `2^1024` on. -/
def ofParts (negative : Bool) (mantissa : Nat) (exponent : Int) : Double :=
  if mantissa = 0 then finite negative 0 0
  else if 1024 ≤ Int.ofNat mantissa.log2 + exponent then infinite negative
  else finite negative mantissa exponent

/-- The double nearest to `num / den`. -/
def ofRatio (negative : Bool) (num den : Nat) : Double :=
  if num = 0 then finite negative 0 0
  else
    let k : Int := Int.ofNat num.log2 - Int.ofNat den.log2
    let (a, b) := shiftRatio num den (-k)
    let top := if b ≤ a then k else k - 1
    let exponent := max (top - 52) (-1074)
    let (a, b) := shiftRatio num den (-exponent)
    ofParts negative (roundDiv a b) exponent

def ofInt (n : Int) : Double :=
  ofRatio (n < 0) n.natAbs 1

/-- An integer with all its bits, for comparisons. -/
def exact (n : Int) : Double :=
  finite (n < 0) n.natAbs 0

/-- The double nearest to `digits · 10^exponent`; far exponents need no power of ten. -/
def ofDecimal (negative : Bool) (digits : Nat) (exponent : Int) : Double :=
  let magnitude := Int.ofNat (digits.log2 * 30103 / 100000) + exponent
  if digits = 0 ∨ magnitude < -400 then finite negative 0 0
  else if 400 < magnitude then infinite negative
  else
    match exponent with
    | .ofNat k => ofRatio negative (digits * tenTo k) 1
    | .negSucc k => ofRatio negative digits (tenTo (k + 1))

/-! ## Comparison and scaling -/

/-- The signed count of units `2^e` in a finite double, for `e` not above its exponent. -/
def units (negative : Bool) (mantissa : Nat) (exponent e : Int) : Int :=
  let n := Int.ofNat (mantissa * twoTo (exponent - e).toNat)
  if negative then -n else n

def lt : Double → Double → Bool
  | finite s m e, finite s' m' e' =>
    units s m e (min e e') < units s' m' e' (min e e')
  | infinite s, infinite s' => s && !s'
  | infinite s, finite .. => s
  | finite .., infinite s => !s
  | _, _ => false

/-- The smaller of two doubles; the first one if neither is smaller. -/
def least (x y : Double) : Double :=
  if lt y x then y else x

/-- The double times `2^k`. -/
def scale (x : Double) (k : Nat) : Double :=
  match x with
  | finite s m e => ofParts s m (e + k)
  | x => x

/-- The double nearest to the sum with an integer. -/
def plus (x : Double) (n : Int) : Double :=
  match x with
  | finite s m e =>
    let places := (-e).toNat
    let sum := n * twoTo places + units s m e (min e 0)
    ofRatio (sum < 0) sum.natAbs (twoTo places)
  | x => x

/-- The integer part of a finite double, cut towards zero. -/
def truncate? : Double → Option Int
  | finite s m e =>
    let n := match e with
      | .ofNat k => m * twoTo k
      | .negSucc k => m / twoTo (k + 1)
    some (if s then -Int.ofNat n else Int.ofNat n)
  | _ => none

/-- The integer that a double equals. -/
def toInt? : Double → Option Int
  | finite s m e =>
    match e with
    | .ofNat k => some (if s then -Int.ofNat (m * twoTo k) else Int.ofNat (m * twoTo k))
    | .negSucc k =>
      if m % twoTo (k + 1) = 0 then
        some (if s then -Int.ofNat (m / twoTo (k + 1)) else Int.ofNat (m / twoTo (k + 1)))
      else none
  | _ => none

/-- Equality of numbers: zeros of both signs are equal, and the undefined double equals nothing. -/
def same : Double → Double → Bool
  | finite s m e, finite s' m' e' =>
    units s m e (min e e') == units s' m' e' (min e e')
  | infinite s, infinite s' => s == s'
  | _, _ => false

/-- The order of numbers; the undefined double is not even at most itself. -/
def le (x y : Double) : Bool :=
  lt x y || same x y

def isFinite : Double → Bool
  | finite .. => true
  | _ => false

def isZero : Double → Bool
  | finite _ m _ => m == 0
  | _ => false

end Double

end ProofGate
