import ProofGate.Value
import Mathlib.Algebra.Order.Field.Power
import Mathlib.Algebra.Order.Field.Rat
import Mathlib.Algebra.Order.Group.Unbundled.Abs
import Mathlib.Algebra.Order.Ring.Int
import Mathlib.Tactic.Linarith
import Mathlib.Tactic.NormNum
import Mathlib.Tactic.Ring

/-!
# Doubles as exact numbers

A finite double is a rational number, and doubles are compared as these are. Multiplying by a power
of two is exact as long as it does not leave the range. An integer that is less than half a step
beyond the greatest double is turned into the nearest number of 53 bits, so into itself if it is
one.
-/

namespace ProofGate

/-! ## Powers -/

theorem twoTo_pos (k : ℕ) : 0 < twoTo k := Nat.two_pow_pos k

theorem twoTo_add (j k : ℕ) : twoTo (j + k) = twoTo j * twoTo k := Nat.pow_add 2 j k

theorem twoTo_succ (k : ℕ) : twoTo (k + 1) = 2 * twoTo k := Nat.pow_succ'

theorem log2_lt_of_lt {n k : ℕ} (h : n < twoTo k) (some : n ≠ 0) : n.log2 < k :=
  (Nat.log2_lt some).mpr h

theorem lt_twoTo_log2 (n : ℕ) : n < twoTo (n.log2 + 1) := Nat.lt_log2_self

theorem twoTo_mono {j k : ℕ} (h : j ≤ k) : twoTo j ≤ twoTo k := Nat.pow_le_pow_right (by decide) h

theorem twoTo_rat (k : ℕ) : ((twoTo k : ℕ) : ℚ) = 2 ^ (k : ℤ) := by
  show ((2 ^ k : ℕ) : ℚ) = 2 ^ (k : ℤ)
  rw [zpow_natCast, Nat.cast_pow]
  rfl

theorem two_zpow_pos (k : ℤ) : (0 : ℚ) < 2 ^ k := zpow_pos (by norm_num) k

theorem two_zpow_add (j k : ℤ) : (2 : ℚ) ^ (j + k) = 2 ^ j * 2 ^ k := zpow_add₀ (by norm_num) j k

namespace Double

/-! ## Exact values -/

/-- A mantissa with its sign, times a power of two. -/
def worth (negative : Bool) (mantissa : ℕ) (exponent : ℤ) : ℚ :=
  (if negative then -(mantissa : ℚ) else mantissa) * 2 ^ exponent

/-- The exact number that a finite double is. -/
def rational? : Double → Option ℚ
  | finite s m e => some (worth s m e)
  | _ => none

theorem rational_eq_some {x : Double} {q : ℚ} (h : x.rational? = some q) :
    ∃ s m e, x = finite s m e ∧ q = worth s m e := by
  cases x with
  | finite s m e =>
    cases h
    exact ⟨s, m, e, rfl, rfl⟩
  | infinite s => cases h
  | nan => cases h

/-- Units that are no larger than those of a double count it exactly. -/
theorem units_mul {s : Bool} {m : ℕ} {e k : ℤ} (low : k ≤ e) :
    (units s m e k : ℚ) * 2 ^ k = worth s m e := by
  have split : (2 : ℚ) ^ (e - k) * 2 ^ k = 2 ^ e := by
    rw [← two_zpow_add, Int.sub_add_cancel]
  have count : ((m * twoTo (e - k).toNat : ℕ) : ℚ) = m * 2 ^ (e - k) := by
    rw [Nat.cast_mul, twoTo_rat, Int.toNat_of_nonneg (by omega)]
  cases s with
  | false =>
    show ((m * twoTo (e - k).toNat : ℕ) : ℚ) * 2 ^ k = (m : ℚ) * 2 ^ e
    rw [count, mul_assoc, split]
  | true =>
    show ((-((m * twoTo (e - k).toNat : ℕ) : ℤ) : ℤ) : ℚ) * 2 ^ k = -(m : ℚ) * 2 ^ e
    rw [Int.cast_neg, Int.cast_natCast, count, neg_mul, neg_mul, mul_assoc, split]

/-- Doubles are in the order of the numbers that they are. -/
theorem lt_iff {x y : Double} {p q : ℚ} (hx : x.rational? = some p) (hy : y.rational? = some q) :
    x.lt y = true ↔ p < q := by
  obtain ⟨s, m, e, rfl, rfl⟩ := rational_eq_some hx
  obtain ⟨s', m', e', rfl, rfl⟩ := rational_eq_some hy
  rw [← units_mul (s := s) (m := m) (min_le_left e e'),
    ← units_mul (s := s') (m := m') (min_le_right e e'),
    mul_lt_mul_iff_left₀ (two_zpow_pos (min e e')), Int.cast_lt]
  exact decide_eq_true_iff

/-- Infinity is above every number. -/
theorem lt_infinite {x : Double} {q : ℚ} (hx : x.rational? = some q) :
    x.lt (infinite false) = true := by
  obtain ⟨s, m, e, rfl, rfl⟩ := rational_eq_some hx
  rfl

theorem le_iff {x y : Double} {p q : ℚ} (hx : x.rational? = some p) (hy : y.rational? = some q) :
    x.le y = true ↔ p ≤ q := by
  have less := lt_iff hx hy
  obtain ⟨s, m, e, rfl, rfl⟩ := rational_eq_some hx
  obtain ⟨s', m', e', rfl, rfl⟩ := rational_eq_some hy
  have same : (finite s m e).same (finite s' m' e') = true ↔ worth s m e = worth s' m' e' := by
    rw [← units_mul (s := s) (m := m) (min_le_left e e'),
      ← units_mul (s := s') (m := m') (min_le_right e e'),
      mul_left_inj' (ne_of_gt (two_zpow_pos (min e e'))), Int.cast_inj]
    exact beq_iff_eq
  rw [le, Bool.or_eq_true, less, same, le_iff_lt_or_eq]

theorem rational_exact (n : ℤ) : (exact n).rational? = some (n : ℚ) := by
  have value : worth (decide (n < 0)) n.natAbs 0 = n := by
    rw [worth, zpow_zero, mul_one]
    by_cases below : n < 0
    · have opposite : ((-(n.natAbs : ℤ) : ℤ) : ℚ) = n := congrArg Int.cast (by omega)
      rw [if_pos (decide_eq_true below), ← opposite, Int.cast_neg, Int.cast_natCast]
    · have same : (((n.natAbs : ℤ) : ℤ) : ℚ) = n := congrArg Int.cast (by omega)
      rw [if_neg (by simp [below]), ← same, Int.cast_natCast]
  exact congrArg some value

/-- The numbers between two integers are finite. -/
theorem rational_of_bounds {x : Double} {m n : ℤ} (low : (exact m).le x = true)
    (high : x.lt (exact n) = true) : ∃ q, x.rational? = some q ∧ m ≤ q ∧ q < n := by
  cases x with
  | finite s k e =>
    have value : (finite s k e).rational? = some (worth s k e) := rfl
    exact ⟨_, value, (le_iff (rational_exact m) value).mp low,
      (lt_iff value (rational_exact n)).mp high⟩
  | infinite s =>
    cases s with
    | false => cases high
    | true => cases low
  | nan => cases high

/-! ## Powers of two -/

theorem rational_ofParts {s : Bool} {m : ℕ} {e : ℤ}
    (inside : m = 0 ∨ (m.log2 : ℤ) + e < 1024) : (ofParts s m e).rational? = some (worth s m e) := by
  rw [ofParts]
  split
  · next zero =>
    subst zero
    cases s <;> simp [rational?, worth]
  · next nonzero =>
    have small : ¬ 1024 ≤ Int.ofNat m.log2 + e := not_le.mpr (inside.resolve_left nonzero)
    rw [if_neg small]
    rfl

/-- A number from zero on is multiplied exactly, unless it comes to lie beyond all doubles. -/
theorem rational_scale {x : Double} {q : ℚ} (hx : x.rational? = some q) (nonneg : 0 ≤ q) (k : ℕ) :
    (x.scale k).rational? = some (q * 2 ^ k) ∨
      x.scale k = infinite false ∧ ((twoTo 1024 : ℕ) : ℚ) ≤ q * 2 ^ k := by
  obtain ⟨s, m, e, rfl, rfl⟩ := rational_eq_some hx
  have grown : worth s m (e + k) = worth s m e * 2 ^ k := by
    rw [worth, worth, two_zpow_add, zpow_natCast, mul_assoc]
  rw [← grown, scale]
  by_cases inside : m = 0 ∨ (m.log2 : ℤ) + (e + k) < 1024
  · exact Or.inl (rational_ofParts inside)
  · right
    rw [not_or, not_lt] at inside
    obtain ⟨nonzero, beyond⟩ := inside
    have positive : s = false := by
      cases s with
      | false => rfl
      | true =>
        have mantissa : (0 : ℚ) < m := Nat.cast_pos.mpr (by omega)
        have below : worth true m e < 0 :=
          mul_neg_of_neg_of_pos (neg_neg_of_pos mantissa) (two_zpow_pos e)
        linarith
    subst positive
    have top : (2 : ℚ) ^ (m.log2 : ℤ) ≤ m := by
      rw [← twoTo_rat]
      exact Nat.cast_le.mpr (Nat.log2_self_le nonzero)
    refine ⟨?_, ?_⟩
    · rw [ofParts, if_neg nonzero]
      exact if_pos beyond
    · calc ((twoTo 1024 : ℕ) : ℚ) = 2 ^ (1024 : ℤ) := twoTo_rat 1024
        _ ≤ 2 ^ ((m.log2 : ℤ) + (e + k)) := zpow_le_zpow_right₀ (by norm_num) beyond
        _ = 2 ^ (m.log2 : ℤ) * 2 ^ (e + k) := two_zpow_add _ _
        _ ≤ m * 2 ^ (e + k) := mul_le_mul_of_nonneg_right top (le_of_lt (two_zpow_pos _))

/-! ## Nearest numbers -/

/-- A number with a mantissa of 53 bits at most. -/
def Fits (q : ℚ) : Prop :=
  ∃ m e : ℤ, |m| < 2 ^ 53 ∧ q = m * 2 ^ e

/-- A double is as near to a number as any of 53 bits is. -/
def Nearest (x : Double) (q : ℚ) : Prop :=
  ∃ p, x.rational? = some p ∧ ∀ z, Fits z → |p - q| ≤ |z - q|

theorem nearest_self {x : Double} {q : ℚ} (hx : x.rational? = some q) : x.Nearest q := by
  refine ⟨q, hx, fun z _ => ?_⟩
  rw [sub_self, abs_zero]
  exact abs_nonneg _

/-- What has 53 bits is not rounded. -/
theorem Nearest.exact {x : Double} {q : ℚ} (near : x.Nearest q) (fits : Fits q) :
    x.rational? = some q := by
  obtain ⟨p, hx, least⟩ := near
  have none := least q fits
  rw [sub_self, abs_zero, abs_nonpos_iff, sub_eq_zero] at none
  rw [hx, none]

theorem fits_natCast {n : ℕ} (few : n < 2 ^ 53) : Fits n := by
  refine ⟨n, 0, ?_, ?_⟩
  · rw [Nat.abs_cast]
    exact_mod_cast few
  · rw [zpow_zero, mul_one, Int.cast_natCast]

theorem Fits.scale {q : ℚ} (fits : Fits q) (k : ℕ) : Fits (q * 2 ^ k) := by
  obtain ⟨m, e, small, rfl⟩ := fits
  refine ⟨m, e + k, small, ?_⟩
  rw [two_zpow_add, zpow_natCast, mul_assoc]

/-- A multiple that is off by half a step at most is as near as any. -/
theorem nearest_multiple {n r u k : ℤ} (half : |2 * (r * u - n)| ≤ u) :
    |r * u - n| ≤ |k * u - n| := by
  obtain ⟨low, high⟩ := abs_le.mp half
  have step : 0 ≤ u := le_trans (abs_nonneg _) half
  obtain below | rfl | above := lt_trichotomy k r
  · have less : k * u ≤ (r - 1) * u := mul_le_mul_of_nonneg_right (by omega) step
    rw [abs_sub_comm (k * u)]
    exact le_trans (abs_le.mpr ⟨by linarith, by linarith⟩) (le_abs_self _)
  · exact le_refl _
  · have more : (r + 1) * u ≤ k * u := mul_le_mul_of_nonneg_right (by omega) step
    exact le_trans (abs_le.mpr ⟨by linarith, by linarith⟩) (le_abs_self _)

/-! ## Rounding of integers -/

/-- The least number that is rounded to no double: half a step beyond the greatest one. -/
def ceiling : ℕ :=
  twoTo 1024 - twoTo 970

theorem ceiling_le : ceiling ≤ twoTo 1024 := Nat.sub_le ..

/-- A rounded quotient is off by half of the divisor at most. -/
theorem roundDiv_near (num : ℕ) {den : ℕ} (pos : 0 < den) :
    2 * (roundDiv num den * den) ≤ 2 * num + den ∧
      2 * num ≤ 2 * (roundDiv num den * den) + den := by
  have whole : den * (num / den) + num % den = num := Nat.div_add_mod num den
  have less : num % den < den := Nat.mod_lt _ pos
  have next : (num / den + 1) * den = den * (num / den) + den := by ring
  have same : num / den * den = den * (num / den) := Nat.mul_comm ..
  rw [roundDiv]
  split
  · omega
  · split
    · omega
    · have even : num / den % 2 = 0 ∨ num / den % 2 = 1 := by omega
      obtain even | odd := even
      · rw [even, Nat.add_zero]
        omega
      · rw [odd]
        omega

theorem roundDiv_one (n : ℕ) : roundDiv n 1 = n := by
  have near := roundDiv_near n Nat.one_pos
  omega

theorem shiftRatio_up (num den k : ℕ) : shiftRatio num den (k : ℕ) = (num * twoTo k, den) := rfl

theorem shiftRatio_down (num den k : ℕ) :
    shiftRatio num den (-(k : Int)) = (num, den * twoTo k) := by
  cases k with
  | zero =>
    show (num * twoTo 0, den) = (num, den * twoTo 0)
    have one : twoTo 0 = 1 := rfl
    rw [one, Nat.mul_one, Nat.mul_one]
  | succ k => rfl

/-- The last of 53 bits of a number gives its exponent. -/
theorem ofInt_natCast {n : ℕ} (nonzero : n ≠ 0) {e : ℤ} (last : e = (n.log2 : ℤ) - 52) :
    ofInt n = ofParts false (roundDiv (shiftRatio n 1 (-e)).1 (shiftRatio n 1 (-e)).2) e := by
  have sign : decide ((n : ℤ) < 0) = false := decide_eq_false (by omega)
  have log : Int.ofNat n.log2 - Int.ofNat (1 : ℕ).log2 = (n.log2 : ℕ) := by
    rw [show (1 : ℕ).log2 = 0 by rfl]
    exact Int.sub_zero _
  have reached : 1 * twoTo n.log2 ≤ n := by
    rw [Nat.one_mul]
    exact Nat.log2_self_le nonzero
  have exponent : max ((n.log2 : ℤ) - 52) (-1074) = e := by omega
  rw [ofInt, sign, Int.natAbs_natCast, ofRatio, if_neg nonzero]
  dsimp only
  rw [log, shiftRatio_down]
  dsimp only
  rw [if_pos reached, exponent]

/-- A number of 53 bits at most is taken as it is. -/
theorem rational_ofInt_of_few {n : ℕ} (nonzero : n ≠ 0) (few : n.log2 ≤ 52) :
    (ofInt n).rational? = some (n : ℚ) := by
  obtain ⟨k, hk⟩ := Nat.exists_eq_add_of_le few
  have wide : n * twoTo k < twoTo 53 := by
    rw [show 53 = n.log2 + 1 + k by omega, twoTo_add]
    exact Nat.mul_lt_mul_of_pos_right (lt_twoTo_log2 n) (twoTo_pos k)
  have bits : (n * twoTo k).log2 < 53 :=
    log2_lt_of_lt wide (Nat.mul_ne_zero nonzero (twoTo_pos k).ne')
  have inside : n * twoTo k = 0 ∨ ((n * twoTo k).log2 : ℤ) + -(k : ℤ) < 1024 :=
    Or.inr (by omega)
  have value : worth false (n * twoTo k) (-(k : ℤ)) = n := by
    show ((n * twoTo k : ℕ) : ℚ) * 2 ^ (-(k : ℤ)) = n
    rw [Nat.cast_mul, twoTo_rat, mul_assoc, ← two_zpow_add, Int.add_right_neg, zpow_zero, mul_one]
  rw [ofInt_natCast nonzero (e := -(k : ℤ)) (by omega), Int.neg_neg, shiftRatio_up, roundDiv_one,
    rational_ofParts inside, value]

/-- A number of more bits is rounded to a multiple of its last one, which stays in range. -/
theorem rational_ofInt_of_many {n k : ℕ} (many : n.log2 = 52 + k) (small : n < ceiling) :
    (ofInt n).rational? = some ((roundDiv n (twoTo k) * twoTo k : ℕ) : ℚ) := by
  obtain ⟨m, hm⟩ : ∃ m, m = roundDiv n (twoTo k) := ⟨_, rfl⟩
  have nonzero : n ≠ 0 := by
    rintro rfl
    rw [show (0 : ℕ).log2 = 0 by rfl] at many
    omega
  have near : 2 * (m * twoTo k) ≤ 2 * n + twoTo k := hm ▸ (roundDiv_near n (twoTo_pos k)).1
  have inside : m = 0 ∨ (m.log2 : ℤ) + k < 1024 := by
    by_cases none : m = 0
    · exact Or.inl none
    · right
      have bits : n.log2 < 1024 := log2_lt_of_lt (lt_of_lt_of_le small ceiling_le) nonzero
      have step : twoTo k ≤ 2 * twoTo 970 := by
        rw [← twoTo_succ]
        exact twoTo_mono (by omega)
      have whole : m * twoTo k < twoTo 1024 := by
        rw [ceiling] at small
        omega
      rw [show 1024 = 1024 - k + k by omega, twoTo_add] at whole
      have below := log2_lt_of_lt (Nat.lt_of_mul_lt_mul_right whole) none
      omega
  have value : worth false m k = ((m * twoTo k : ℕ) : ℚ) := by
    show (m : ℚ) * 2 ^ (k : ℤ) = _
    rw [Nat.cast_mul, twoTo_rat]
  rw [ofInt_natCast nonzero (e := (k : ℤ)) (by omega), shiftRatio_down, Nat.one_mul, ← hm,
    rational_ofParts inside, value]

/-- Numbers of 53 bits are multiples of the last bit of `n`, or have no more than its first bit. -/
theorem Fits.multiple_or_less {z : ℚ} (fits : Fits z) (k : ℕ) :
    (∃ j : ℤ, z = ((j * twoTo k : ℤ) : ℚ)) ∨ z ≤ ((2 ^ 52 * twoTo k : ℤ) : ℚ) := by
  obtain ⟨m, e, small, rfl⟩ := fits
  by_cases high : (k : ℤ) ≤ e
  · left
    refine ⟨m * twoTo (e - k).toNat, ?_⟩
    rw [Int.cast_mul, Int.cast_mul, Int.cast_natCast, Int.cast_natCast, twoTo_rat, twoTo_rat,
      Int.toNat_of_nonneg (by omega), mul_assoc, ← two_zpow_add, Int.sub_add_cancel]
  · right
    have mantissa : (m : ℚ) ≤ 2 ^ 53 := by
      have bound := le_of_lt (lt_of_abs_lt small)
      exact_mod_cast bound
    calc (m : ℚ) * 2 ^ e ≤ 2 ^ 53 * 2 ^ e :=
          mul_le_mul_of_nonneg_right mantissa (le_of_lt (two_zpow_pos e))
      _ ≤ 2 ^ 53 * 2 ^ ((k : ℤ) - 1) :=
          mul_le_mul_of_nonneg_left (zpow_le_zpow_right₀ (by norm_num) (by omega)) (by norm_num)
      _ = ((2 ^ 52 * twoTo k : ℤ) : ℚ) := by
          rw [Int.cast_mul, Int.cast_natCast, twoTo_rat, zpow_sub_one₀ (by norm_num)]
          push_cast
          ring

/-- Half a step is missing at `2^1024`, where the last bit of a double counts `2^971`. -/
theorem exists_half : ∃ u, 0 < u ∧ twoTo 971 = 2 * u ∧ twoTo 1024 = 2 ^ 53 * (2 * u) ∧
    ceiling + u = 2 ^ 53 * (2 * u) := by
  have step : twoTo 971 = 2 * twoTo 970 := twoTo_succ 970
  have bits : twoTo 53 = 2 ^ 53 := rfl
  have top : twoTo 1024 = 2 ^ 53 * twoTo 971 := by
    rw [show 1024 = 53 + 971 by decide, twoTo_add, bits]
  have gap : ceiling + twoTo 970 = twoTo 1024 := by
    rw [ceiling, Nat.sub_add_cancel (twoTo_mono (by decide))]
  rw [top, step] at gap
  rw [step] at top
  exact ⟨twoTo 970, twoTo_pos 970, step, top, gap⟩

/-- Nothing of 53 bits is between the greatest double and what is beyond all of them. -/
theorem Fits.lt_ceiling {q : ℚ} (fits : Fits q) (small : q < (twoTo 1024 : ℕ)) : q < ceiling := by
  obtain ⟨u, pos, step, top, gap⟩ := exists_half
  have multiple := fits.multiple_or_less 971
  rw [step] at multiple
  rw [top] at small
  have pos : (0 : ℤ) < u := by exact_mod_cast pos
  have gap : (ceiling : ℤ) + u = 2 ^ 53 * (2 * u) := by exact_mod_cast gap
  obtain ⟨j, rfl⟩ | less := multiple
  · have below : j * (2 * u) < 2 ^ 53 * (2 * u : ℤ) := by exact_mod_cast small
    have mantissa : j < 2 ^ 53 := lt_of_mul_lt_mul_right below (by linarith)
    have next : (j + 1) * (2 * u : ℤ) ≤ 2 ^ 53 * (2 * u) :=
      mul_le_mul_of_nonneg_right mantissa (by linarith)
    have whole : j * (2 * u : ℤ) < ceiling := by linarith
    exact_mod_cast whole
  · have first : 2 ^ 52 * (2 * u : ℤ) < ceiling := by linarith
    exact lt_of_le_of_lt less (by exact_mod_cast first)

/-- **Rounding.** An integer below the ceiling is turned into the nearest number of 53 bits. -/
theorem nearest_ofInt {n : ℕ} (small : n < ceiling) : (ofInt n).Nearest n := by
  by_cases zero : n = 0
  · subst zero
    exact nearest_self (by simp [ofInt, ofRatio, rational?, worth])
  obtain few | many := Nat.le_total n.log2 52
  · exact nearest_self (rational_ofInt_of_few zero few)
  obtain ⟨k, many⟩ := Nat.exists_eq_add_of_le many
  refine ⟨_, rational_ofInt_of_many many small, fun z fits => ?_⟩
  have half : |2 * ((roundDiv n (twoTo k) : ℤ) * twoTo k - n)| ≤ twoTo k := by
    obtain ⟨high, low⟩ := roundDiv_near n (twoTo_pos k)
    have upper : 2 * ((roundDiv n (twoTo k) : ℤ) * twoTo k) ≤ 2 * n + twoTo k := by
      exact_mod_cast high
    have lower : 2 * (n : ℤ) ≤ 2 * ((roundDiv n (twoTo k) : ℤ) * twoTo k) + twoTo k := by
      exact_mod_cast low
    exact abs_le.mpr ⟨by linarith, by linarith⟩
  have multiple (j : ℤ) : |((roundDiv n (twoTo k) * twoTo k : ℕ) : ℚ) - n| ≤
      |((j * twoTo k : ℤ) : ℚ) - n| := by
    have near := nearest_multiple (k := j) half
    exact_mod_cast near
  obtain ⟨j, rfl⟩ | less := fits.multiple_or_less k
  · exact multiple j
  · have first : ((2 ^ 52 * twoTo k : ℤ) : ℚ) ≤ n := by
      have reached : twoTo n.log2 ≤ n := Nat.log2_self_le zero
      rw [many, twoTo_add] at reached
      exact_mod_cast reached
    refine le_trans (multiple (2 ^ 52)) ?_
    rw [abs_sub_comm, abs_of_nonneg (by linarith), abs_sub_comm z]
    exact le_trans (by linarith) (le_abs_self _)

end Double

/-- The exact number that a value is, if it is a finite one. -/
def Value.rational? (v : Value) : Option ℚ :=
  v.number?.bind Double.rational?

end ProofGate
