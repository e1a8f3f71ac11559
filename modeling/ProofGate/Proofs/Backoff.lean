import ProofGate.Backoff
import ProofGate.Proofs.Double
import ProofGate.Proofs.Run
import ProofGate.Proofs.Value
import Mathlib.Logic.Function.Iterate

/-!
# Repetition

One attempt returns, ends the repetition with its failure, or waits and leaves the rest to the next
one. So a repetition ends with the outcome of the first attempt that is not worth another, or with
that of the last there is, and waits between the attempts up to there. Delays are exact numbers of
seconds; as long as they are within the range of doubles they never end it.
-/

namespace ProofGate

namespace Backoff

/-! ## Delays -/

/-- The delay after an attempt in exact seconds. -/
def schedule (doubling : Bool) (base limit : ℚ) (attempt : ℕ) : ℚ :=
  if doubling then min (base * 2 ^ attempt) limit else base

/-- Integers in range can be converted. -/
theorem seconds_of_count {v : Value} {n : ℤ} (count : v.count? = some n)
    (finite : (Double.ofInt n).isFinite = true) : seconds v = .ok (Double.ofInt n) := by
  cases v with
  | bool b | int k =>
    cases count
    exact if_pos finite
  | null | float x | text s | bytes bs | list vs | object ms => cases count

/-- A number within the range of doubles is slept as the double nearest to it. -/
theorem seconds_nearest {v : Value} {q : ℚ} (value : v.rational? = some q) (nonneg : 0 ≤ q)
    (range : q < Double.ceiling) : ∃ d, seconds v = .ok d ∧ d.Nearest q := by
  obtain ⟨x, number, exact⟩ := Option.bind_eq_some_iff.mp value
  rcases Value.number_eq_some number with rfl | ⟨n, count, rfl⟩
  · exact ⟨x, rfl, Double.nearest_self exact⟩
  · rw [Double.rational_exact, Option.some.injEq] at exact
    subst exact
    obtain ⟨m, rfl⟩ := Int.eq_ofNat_of_zero_le (Int.cast_nonneg_iff.mp nonneg)
    have near := Double.nearest_ofInt (Nat.cast_lt.mp range)
    have finite : (Double.ofInt m).isFinite = true := by
      obtain ⟨p, there, _⟩ := near
      obtain ⟨s, k, e, same, _⟩ := Double.rational_eq_some there
      rw [same]
      rfl
    exact ⟨Double.ofInt m, seconds_of_count count finite, near⟩

/-- A number from zero on is multiplied exactly, or comes to lie beyond all doubles. -/
theorem grown_rational {v : Value} {q : ℚ} (value : v.rational? = some q) (nonneg : 0 ≤ q) {k : ℕ}
    (few : k < 1024) : ∃ w, grown v k = .ok w ∧ (w.rational? = some (q * 2 ^ k) ∨
      w = .float (.infinite false) ∧ ((twoTo 1024 : ℕ) : ℚ) ≤ q * 2 ^ k) := by
  obtain ⟨x, number, exact⟩ := Option.bind_eq_some_iff.mp value
  rcases Value.number_eq_some number with rfl | ⟨n, count, rfl⟩
  · refine ⟨.float (x.scale k), if_pos few, ?_⟩
    rcases Double.rational_scale exact nonneg k with inside | ⟨beyond, above⟩
    · exact Or.inl inside
    · exact Or.inr ⟨congrArg Value.float beyond, above⟩
  · rw [Double.rational_exact, Option.some.injEq] at exact
    subst exact
    have whole : (Value.int (n * twoTo k)).rational? = some ((n : ℚ) * 2 ^ k) := by
      show (Double.exact (n * twoTo k)).rational? = _
      rw [Double.rational_exact, Int.cast_mul, Int.cast_natCast, twoTo_rat, zpow_natCast]
    refine ⟨.int (n * twoTo k), ?_, Or.inl whole⟩
    cases v with
    | bool b | int m =>
      cases count
      rfl
    | null | float x | text s | bytes bs | list vs | object ms => cases count

theorem least_of_numbers {v limit : Value} {x y : Double} (first : v.number? = some x)
    (second : limit.number? = some y) :
    least v limit = .ok (if y.lt x then limit else v) := by
  unfold least
  rw [first, second]

/-- The smaller of two numbers is taken, and a number rather than what is beyond all doubles. -/
theorem least_rational {v limit : Value} {p q : ℚ} (second : limit.rational? = some q)
    (first : v.rational? = some p ∨ v = .float (.infinite false) ∧ q ≤ p) :
    ∃ w, least v limit = .ok w ∧ w.rational? = some (min p q) := by
  obtain ⟨y, there, bound⟩ := Option.bind_eq_some_iff.mp second
  rcases first with first | ⟨rfl, above⟩
  · obtain ⟨x, here, value⟩ := Option.bind_eq_some_iff.mp first
    rw [least_of_numbers here there]
    by_cases less : y.lt x = true
    · rw [if_pos less, min_eq_right (le_of_lt ((Double.lt_iff bound value).mp less))]
      exact ⟨limit, rfl, second⟩
    · rw [Double.lt_iff bound value, not_lt] at less
      rw [if_neg (by rwa [Double.lt_iff bound value, not_lt]), min_eq_left less]
      exact ⟨v, rfl, first⟩
  · rw [least_of_numbers rfl there, if_pos (Double.lt_infinite bound), min_eq_right above]
    exact ⟨limit, rfl, second⟩

/-- **Delays.** Each of the first 1024 delays is the scheduled one, as long as that is within the
range of doubles. -/
theorem delay_schedule {b : Backoff} {base limit : ℚ} (start : b.base.rational? = some base)
    (bound : b.limit.rational? = some limit) (nonneg : 0 ≤ base) (nonneg' : 0 ≤ limit)
    {attempt : ℕ} (few : attempt < 1024)
    (range : schedule b.doubling base limit attempt < Double.ceiling) :
    ∃ v d, b.delay attempt = .ok v ∧ seconds v = .ok d ∧
      d.Nearest (schedule b.doubling base limit attempt) := by
  rw [delay]
  cases doubling : b.doubling with
  | false =>
    rw [doubling] at range
    obtain ⟨d, slept, near⟩ := seconds_nearest start nonneg range
    exact ⟨b.base, d, rfl, slept, near⟩
  | true =>
    rw [doubling] at range
    have range : min (base * 2 ^ attempt) limit < Double.ceiling := range
    obtain ⟨w, grows, value⟩ := grown_rational start nonneg few
    have value : w.rational? = some (base * 2 ^ attempt) ∨
        w = .float (.infinite false) ∧ limit ≤ base * 2 ^ attempt := by
      refine value.imp_right fun ⟨infinite, beyond⟩ => ⟨infinite, ?_⟩
      -- What lies beyond all doubles is no scheduled delay, so the limit is.
      have high : (Double.ceiling : ℚ) ≤ base * 2 ^ attempt :=
        le_trans (Nat.cast_le.mpr Double.ceiling_le) beyond
      by_contra less
      rw [min_eq_left (le_of_lt (not_le.mp less))] at range
      linarith
    obtain ⟨v, least, value⟩ := least_rational bound value
    have sign : 0 ≤ min (base * 2 ^ attempt) limit :=
      le_min (mul_nonneg nonneg (pow_nonneg (by norm_num) attempt)) nonneg'
    obtain ⟨d, slept, near⟩ := seconds_nearest value sign range
    refine ⟨v, d, ?_, slept, near⟩
    rw [if_pos rfl, grows, ok_bind, least]

/-- A number from zero on that can be a double. -/
def IsDelay (v : Value) : Prop :=
  ∃ x, v.number? = some x ∧ (Double.exact 0).le x = true ∧
    x.lt (.exact Double.ceiling) = true

theorem IsDelay.rational {v : Value} (h : IsDelay v) :
    ∃ q, v.rational? = some q ∧ 0 ≤ q ∧ q < Double.ceiling := by
  obtain ⟨x, number, sign, range⟩ := h
  obtain ⟨q, value, low, high⟩ := Double.rational_of_bounds sign range
  rw [Int.cast_zero] at low
  rw [Int.cast_natCast] at high
  refine ⟨q, ?_, low, high⟩
  rw [Value.rational?, number]
  exact value

/-- A policy of delays within the range of doubles never schedules another. -/
theorem schedule_lt {base limit bound : ℚ} (low : base < bound) (high : limit < bound)
    (doubling : Bool) (attempt : ℕ) : schedule doubling base limit attempt < bound := by
  cases doubling with
  | false => exact low
  | true => exact lt_of_le_of_lt (min_le_right _ _) high

/-- A policy of so many attempts, with numbers for delays and nothing special to repeat. A delay
doubled more than 1023 times would leave the range of doubles. -/
structure Usable (b : Backoff) (n : ℕ) : Prop where
  attempts : b.attempts.count? = some n
  one : 1 ≤ n
  most : n ≤ 1025
  base : IsDelay b.base
  limit : IsDelay b.limit
  standard : b.repeatable = .standard

theorem Usable.delays {n k : ℕ} {b : Backoff} (h : b.Usable n) (few : k < n) :
    ∀ i < k, ∃ v d, b.delay i = .ok v ∧ seconds v = .ok d := by
  intro i hi
  obtain ⟨base, start, nonneg, low⟩ := h.base.rational
  obtain ⟨limit, bound, nonneg', high⟩ := h.limit.rational
  have most := h.most
  obtain ⟨v, d, delay, slept, _⟩ := delay_schedule start bound nonneg nonneg'
    (show i < 1024 by omega) (schedule_lt low high ..)
  exact ⟨v, d, delay, slept⟩

/-! ## One attempt -/

variable {σ α : Type} {b : Backoff} {name : Text} {operation : Run σ α} {s : σ}
  {attempt left : ℕ}

/-- An outcome worth another attempt. -/
def Again (b : Backoff) (outcome : Except Failure α) : Prop :=
  ∃ e, outcome = .error e ∧ b.isRepeatable e = .ok true

/-- What is shown between two attempts. -/
def pause (b : Backoff) (name : Text) (attempt : ℕ) (e : Failure) (d : Double) : List Event :=
  [.logged ⟨.warning, .retry, b.notice name attempt e d⟩, .slept d]

theorem isRepeatable_standard (standard : b.repeatable = .standard) (e : Failure) :
    b.isRepeatable e = .ok (standardKinds.any e.isA) := by
  rw [isRepeatable, standard]

/-- Kinds that can be told are compared. -/
theorem isRepeatable_eq_ok (told : b.repeatable ≠ .unusable) (e : Failure) :
    ∃ again, b.isRepeatable e = .ok again := by
  unfold isRepeatable
  split
  · exact ⟨_, rfl⟩
  · exact ⟨_, rfl⟩
  · contradiction

/-- What is not worth another attempt, or has none left, ends the repetition. -/
theorem runFrom_end (told : b.repeatable ≠ .unusable)
    (ends : left = 0 ∨ ¬ b.Again (operation s).outcome) :
    b.runFrom name operation attempt (left + 1) s = operation s := by
  rw [runFrom, Run.bind_apply_ok (a := (operation s).outcome) (by rw [Run.attempt_apply]),
    Run.attempt_apply]
  generalize operation s = t at ends
  obtain ⟨outcome, events, state⟩ := t
  cases outcome with
  | ok a => simp [Run.after]
  | error e =>
    obtain ⟨again, repeatable⟩ := isRepeatable_eq_ok told e
    have last : (!again || left == 0) = true := by
      rcases ends with rfl | once
      · exact Bool.or_true _
      · cases again with
        | true => exact absurd ⟨e, rfl, repeatable⟩ once
        | false => rfl
    simp only [repeatable, Run.ofExcept_ok_bind, last, if_true, Run.fail_apply, Run.after,
      List.append_nil]

/-- What is worth another attempt is followed by its delay, a notice of that and all the rest. -/
theorem runFrom_failed {e : Failure} (fails : (operation s).outcome = .error e)
    (repeatable : b.isRepeatable e = .ok true) :
    b.runFrom name operation attempt (left + 2) s =
      Run.after (operation s).events
        ((Run.ofExcept (b.delay attempt >>= seconds) >>= fun d => do
          Run.log .warning .retry (b.notice name attempt e d)
          Run.emit (.slept d)
          b.runFrom name operation (attempt + 1) (left + 1)) (operation s).state) := by
  rw [runFrom, Run.bind_apply_ok (a := (operation s).outcome) (by rw [Run.attempt_apply]),
    Run.attempt_apply, fails]
  have more : (!true || left + 1 == 0) = false := rfl
  simp only [repeatable, Run.ofExcept_ok_bind, more, if_false, Bool.false_eq_true,
    Run.ofExcept_bind, bind_assoc]

/-- It is waited for if its delay can be told. -/
theorem runFrom_again {e : Failure} {v : Value} {d : Double}
    (fails : (operation s).outcome = .error e) (repeatable : b.isRepeatable e = .ok true)
    (delay : b.delay attempt = .ok v) (seconds : seconds v = .ok d) :
    b.runFrom name operation attempt (left + 2) s =
      Run.after ((operation s).events ++ b.pause name attempt e d)
        (b.runFrom name operation (attempt + 1) (left + 1) (operation s).state) := by
  rw [runFrom_failed fails repeatable, delay, ok_bind, seconds, Run.ofExcept_ok_bind,
    Run.log_bind_apply, Run.emit_bind_apply, Run.after_after, Run.after_after, List.append_assoc]
  rfl

/-- Else it gives way to what is wrong with its delay. -/
theorem runFrom_undelayed {e f : Failure} (fails : (operation s).outcome = .error e)
    (repeatable : b.isRepeatable e = .ok true)
    (undelayed : (b.delay attempt >>= seconds) = .error f) :
    b.runFrom name operation attempt (left + 2) s =
      ⟨.error f, (operation s).events, (operation s).state⟩ := by
  rw [runFrom_failed fails repeatable, undelayed, Run.ofExcept_error_bind, Run.fail_apply,
    Run.after, List.append_nil]

/-- **Nothing but what an attempt gives.** What comes back of a repetition was given by one of its
attempts, in a state with all that the attempts keep. -/
theorem exists_of_runFrom_ok {keeps : σ → Prop} (step : ∀ s, keeps s → keeps (operation s).state)
    (start : keeps s) {a : α}
    (returns : (b.runFrom name operation attempt left s).outcome = .ok a) :
    ∃ s, keeps s ∧ (operation s).outcome = .ok a := by
  induction left generalizing attempt s with
  | zero => cases returns
  | succ left ih =>
    obtain ⟨_, tried, returns⟩ := Run.bind_outcome_eq_ok.mp returns
    cases tried
    cases given : (operation s).outcome with
    | ok _ =>
      rw [given] at returns
      exact ⟨s, start, given.trans returns⟩
    | error e =>
      rw [given] at returns
      obtain ⟨again, _, returns⟩ := Run.bind_outcome_eq_ok.mp returns
      split at returns
      · cases returns
      · obtain ⟨_, _, returns⟩ := Run.bind_outcome_eq_ok.mp returns
        obtain ⟨_, _, returns⟩ := Run.bind_outcome_eq_ok.mp returns
        exact ih (step s start) returns

/-! ## All attempts -/

/-- The state after an operation was run so many times. -/
def called (operation : Run σ α) (count : ℕ) (s : σ) : σ :=
  (fun s => (operation s).state)^[count] s

theorem called_succ (operation : Run σ α) (count : ℕ) (s : σ) :
    called operation (count + 1) s = (operation (called operation count s)).state :=
  Function.iterate_succ_apply' _ count s

/-- **Repetition.** If one attempt is the first that is not worth another, or the last that there
is, the whole is that attempt behind those in front of it, each with its pause. -/
theorem runFrom_trace (told : b.repeatable ≠ .unusable) (name : Text) {k m : ℕ}
    {e : ℕ → Failure} {d : ℕ → Double}
    (delays : ∀ i < k, ∃ v, b.delay (attempt + i) = .ok v ∧ seconds v = .ok (d i))
    (again : ∀ i < k, (operation (called operation i s)).outcome = .error (e i) ∧
      b.isRepeatable (e i) = .ok true)
    (ends : m = 0 ∨ ¬ b.Again (operation (called operation k s)).outcome) :
    b.runFrom name operation attempt (m + k + 1) s =
      Run.after ((List.range k).flatMap fun i =>
          (operation (called operation i s)).events ++ b.pause name (attempt + i) (e i) (d i))
        (operation (called operation k s)) := by
  -- One attempt is taken off in front; the state then is the one after it.
  induction k generalizing attempt s e d with
  | zero =>
    have last : m = 0 ∨ ¬ b.Again (operation s).outcome := ends
    rw [Nat.add_zero, runFrom_end told last]
    rfl
  | succ k ih =>
    obtain ⟨fails, repeatable⟩ := again 0 (Nat.zero_lt_succ k)
    obtain ⟨v, delay, slept⟩ := delays 0 (Nat.zero_lt_succ k)
    have later : ∀ i < k, ∃ v, b.delay (attempt + 1 + i) = .ok v ∧ seconds v = .ok (d (i + 1)) := by
      intro i hi
      rw [Nat.add_right_comm]
      exact delays (i + 1) (Nat.succ_lt_succ hi)
    have step : b.runFrom name operation attempt (m + (k + 1) + 1) s =
        Run.after ((operation s).events ++ b.pause name attempt (e 0) (d 0))
          (b.runFrom name operation (attempt + 1) (m + k + 1) (operation s).state) :=
      runFrom_again fails repeatable delay slept
    have rest : b.runFrom name operation (attempt + 1) (m + k + 1) (operation s).state = _ :=
      ih (e := fun i => e (i + 1)) (d := fun i => d (i + 1)) later
        (fun i hi => again (i + 1) (Nat.succ_lt_succ hi)) ends
    have shift (i : ℕ) : attempt + 1 + i = attempt + (i + 1) := by omega
    simp only [shift] at rest
    rw [step, rest, Run.after_after, List.range_succ_eq_map, List.flatMap_cons, List.flatMap_map]
    rfl

/-- Its outcome is the outcome of the whole, and the operation was run up to it. -/
theorem runFrom_first (standard : b.repeatable = .standard) (name : Text) {k m : ℕ}
    (delays : ∀ i < k, ∃ v d, b.delay (attempt + i) = .ok v ∧ seconds v = .ok d)
    (again : ∀ i < k, b.Again (operation (called operation i s)).outcome)
    (ends : m = 0 ∨ ¬ b.Again (operation (called operation k s)).outcome) :
    (b.runFrom name operation attempt (m + k + 1) s).outcome =
        (operation (called operation k s)).outcome ∧
      (b.runFrom name operation attempt (m + k + 1) s).state = called operation (k + 1) s := by
  have told : b.repeatable ≠ .unusable := standard.trans_ne (by decide)
  have : Nonempty Value := ⟨.null⟩
  have : Nonempty Double := ⟨.nan⟩
  have : Nonempty Failure := ⟨.noAttempt⟩
  choose! v d slept using delays
  choose! e fails using again
  have trace := runFrom_trace told name (fun i hi => ⟨v i, slept i hi⟩) fails ends
  rw [trace, called_succ]
  exact ⟨rfl, rfl⟩

theorem exists_of_run_ok {keeps : σ → Prop} (step : ∀ s, keeps s → keeps (operation s).state)
    (start : keeps s) {name : Value} {a : α} (returns : (b.run name operation s).outcome = .ok a) :
    ∃ s, keeps s ∧ (operation s).outcome = .ok a := by
  obtain ⟨_, _, returns⟩ := Run.bind_outcome_eq_ok.mp returns
  exact exists_of_runFrom_ok step start returns

/-- A run is the repetition of all its attempts from the first on. -/
theorem run_of_count {n : ℤ} (attempts : b.attempts.count? = some n) (name : Value) :
    b.run name operation =
      b.runFrom (if name.isPresent then name.bare else "operation") operation 0 n.toNat := by
  rw [run, Member.count, attempts]
  rfl

theorem Usable.run_eq {n : ℕ} (h : b.Usable n) (name : Value) :
    b.run name operation =
      b.runFrom (if name.isPresent then name.bare else "operation") operation 0 n :=
  run_of_count h.attempts name

end Backoff

end ProofGate
