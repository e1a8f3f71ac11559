import ProofGate.Number.Double
import ProofGate.Number.Numeral

/-!
# Decimal text of doubles

Two forms: a fixed number of places, with a tie going to the even last digit, and the shortest
digits that read back as the same double.
-/

namespace ProofGate.Double

/-! ## Fixed places -/

/-- A natural number of hundredths, thousandths and so on, with its point. -/
def pointed (places n : Nat) : String :=
  let ds := Numeral.padded 10 (places + 1) n
  let whole := ds.take (ds.length - places)
  let rest := ds.drop (ds.length - places)
  if places = 0 then String.ofList whole else String.ofList (whole ++ '.' :: rest)

/-- The exact value rounded to a number of decimal places. -/
def fixed (places : Nat) : Double → String
  | nan => "nan"
  | infinite s => if s then "-inf" else "inf"
  | finite s m e =>
    let (a, b) := shiftRatio (m * tenTo places) 1 e
    (if s then "-" else "") ++ pointed places (roundDiv a b)

/-! ## Shortest digits -/

/-- The interval of reals that round to a double, in quarters of its last place. -/
structure Interval where
  low : Nat
  value : Nat
  high : Nat
  exponent : Int
  closed : Bool

/-- The same value with 53 bits in the mantissa, as far as the exponent allows. -/
def normalize (m : Nat) (e : Int) : Nat × Int :=
  let up := min (52 - Int.ofNat m.log2) (e + 1074)
  match up with
  | .ofNat k => (m * twoTo k, e - up)
  | .negSucc k => (m / twoTo (k + 1), e - up)

def interval (m : Nat) (e : Int) : Interval :=
  let (m, e) := normalize m e
  let low := if m = twoTo 52 ∧ -1074 < e then 4 * m - 1 else 4 * m - 2
  { low, value := 4 * m, high := 4 * m + 2, exponent := e - 2, closed := m % 2 == 0 }

/-- Compares `n · 10^p` with `k · 2^e`. -/
def compareScaled (n : Nat) (p : Int) (k : Nat) (e : Int) : Ordering :=
  let (a, b) := match p with
    | .ofNat p => (n * tenTo p, 1)
    | .negSucc p => (n, tenTo (p + 1))
  let (c, d) := shiftRatio k 1 e
  compare (a * d) (c * b)

def Interval.has (i : Interval) (n : Nat) (p : Int) : Bool :=
  let below := compareScaled n p i.low i.exponent
  let above := compareScaled n p i.high i.exponent
  (below == .gt || (below == .eq && i.closed)) && (above == .lt || (above == .eq && i.closed))

/-- The point of the grid `10^p` nearest to the value among those in the interval. -/
def Interval.onGrid? (i : Interval) (p : Int) : Option Nat :=
  let (a, b) := shiftRatio i.value 1 i.exponent
  let (a, b) := match p with
    | .ofNat p => (a, b * tenTo p)
    | .negSucc p => (a * tenTo (p + 1), b)
  let floor := a / b
  let near := roundDiv a b
  let far := if near = floor then floor + 1 else floor
  if i.has near p then some near else if i.has far p then some far else none

/-- The first grid of at most `fuel` that has a point in the interval. -/
def Interval.shortest (i : Interval) : Nat → Int → Nat × Int
  | 0, p => (0, p)
  | fuel + 1, p =>
    match i.onGrid? p with
    | some n => if n = 0 then i.shortest fuel (p - 1) else (n, p)
    | none => i.shortest fuel (p - 1)

/-- The fewest digits that read back as `m · 2^e`, and the weight of the last one. -/
def shortestDigits (m : Nat) (e : Int) : Nat × Int :=
  let i := interval m e
  let top : Int := (Int.ofNat m.log2 + e + 1) * 30103 / 100000 + 1
  i.shortest 24 top

def dropTrailingZeros (ds : List Char) : List Char :=
  (ds.reverse.dropWhile (· == '0')).reverse

/-- Positional from `0.0001` up to below `10^16`, with at least one place after the point;
otherwise one digit, a fraction if there are more digits, and a signed exponent of two digits. -/
def shortestText (digits : List Char) (last : Int) : String :=
  let exponent := last + Int.ofNat digits.length - 1
  let body :=
    if -4 ≤ exponent ∧ exponent < 16 then
      if exponent < 0 then
        '0' :: '.' :: (List.replicate (-exponent - 1).toNat '0' ++ digits)
      else
        let whole := exponent.toNat + 1
        let front := digits.take whole ++ List.replicate (whole - digits.length) '0'
        let rest := digits.drop whole
        front ++ '.' :: (if rest.isEmpty then ['0'] else rest)
    else
      let fraction := digits.drop 1
      digits.take 1 ++ (if fraction.isEmpty then [] else '.' :: fraction)
        ++ 'e' :: (if exponent < 0 then '-' else '+') :: Numeral.padded 10 2 exponent.natAbs
  String.ofList body

def text : Double → String
  | nan => "nan"
  | infinite s => if s then "-inf" else "inf"
  | finite s 0 _ => if s then "-0.0" else "0.0"
  | finite s m e =>
    let (n, p) := shortestDigits m e
    let ds := Numeral.digits 10 n
    let kept := dropTrailingZeros ds
    (if s then "-" else "") ++ shortestText kept (p + Int.ofNat (ds.length - kept.length))

end ProofGate.Double
