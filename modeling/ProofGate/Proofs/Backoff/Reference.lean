import ProofGate.Proofs.Backoff

/-!
# The reference trace of a repetition

An operation is given by the row of its outcomes. Repeating it calls it up to the first outcome that
is not worth another attempt, or until no attempt is left, always with the same arguments. Between
two calls one warning is logged and one delay is slept, nowhere else; the delays double from the
first one on up to their limit, or stay as they are.
-/

namespace ProofGate

/-- An operation with its outcomes and its own events in a row, and a record of what it was called
with. -/
def Script.recorded {ι α : Type} (outcomes : ℕ → Except Failure α) (shown : ℕ → List Event)
    (arguments : ι) : Run (List ι) α :=
  fun calls => ⟨outcomes calls.length, shown calls.length, calls ++ [arguments]⟩

namespace Backoff

/-! ## Schedules -/

theorem fits_schedule {base limit : ℚ} (first : Double.Fits base) (bound : Double.Fits limit)
    (doubling : Bool) (attempt : ℕ) : Double.Fits (schedule doubling base limit attempt) := by
  cases doubling with
  | false => exact first
  | true =>
    show Double.Fits (min (base * 2 ^ attempt) limit)
    rcases min_choice (base * 2 ^ attempt) limit with same | same
    · rw [same]
      exact first.scale attempt
    · rw [same]
      exact bound

/-- A schedule never falls, and never exceeds a limit that it does not start beyond. -/
theorem schedule_mono {base limit : ℚ} (nonneg : 0 ≤ base) (below : base ≤ limit) (doubling : Bool)
    {i j : ℕ} (later : i ≤ j) :
    schedule doubling base limit i ≤ schedule doubling base limit j ∧
      schedule doubling base limit j ≤ limit := by
  cases doubling with
  | false => exact ⟨le_refl base, below⟩
  | true =>
    have grows : base * 2 ^ i ≤ base * 2 ^ j :=
      mul_le_mul_of_nonneg_left (pow_le_pow_right₀ (by norm_num) later) nonneg
    exact ⟨min_le_min_right limit grows, min_le_right _ _⟩

/-! ## Runs over a row of outcomes -/

/-- The events of so many calls: each but the last is followed by a pause. -/
def course (b : Backoff) (name : Text) (shown : ℕ → List Event) (e : ℕ → Failure)
    (d : ℕ → Double) : ℕ → List Event
  | 0 => []
  | k + 1 => (List.range k).flatMap (fun i => shown i ++ b.pause name i (e i) (d i)) ++ shown k

/-- A policy of at most 1025 attempts that can be told from others, with delays of so many seconds
each of which is within the range of doubles. -/
structure Timed (b : Backoff) (n : ℤ) (base limit : ℚ) : Prop where
  attempts : b.attempts.count? = some n
  most : n ≤ 1025
  start : b.base.rational? = some base
  bound : b.limit.rational? = some limit
  nonneg : 0 ≤ base ∧ 0 ≤ limit
  range : ∀ i : ℕ, (i : ℤ) + 1 < n → schedule b.doubling base limit i < Double.ceiling
  told : b.repeatable ≠ .unusable

/-- The trace `t` that a policy leaves with an operation of these outcomes. -/
structure Follows {ι α : Type} (b : Backoff) (name : Text) (n : ℤ) (base limit : ℚ)
    (outcomes : ℕ → Except Failure α) (shown : ℕ → List Event) (arguments : ι)
    (t : Trace (List ι) α) : Prop where
  /-- Without an attempt nothing is called. -/
  none : n ≤ 0 → t.outcome = .error .noAttempt ∧ t.state = []
  /-- The first outcome that is not worth another attempt is the outcome of the whole. -/
  settled : ∀ k : ℕ, k < n → (∀ i < k, b.Again (outcomes i)) → ¬ b.Again (outcomes k) →
    t.outcome = outcomes k ∧ t.state = List.replicate (k + 1) arguments
  /-- If all attempts are worth another one, the last of them is. -/
  spent : ∀ k : ℕ, n = k + 1 → (∀ i < k + 1, b.Again (outcomes i)) →
    t.outcome = outcomes k ∧ t.state = List.replicate (k + 1) arguments
  /-- One warning and one delay stand between two calls, each delay the scheduled one: as a double
  if it is one, else as the nearest. -/
  between : ∃ (e : ℕ → Failure) (d : ℕ → Double),
    t.events = b.course name shown e d t.state.length ∧
    ∀ i, i + 1 < t.state.length → outcomes i = .error (e i) ∧
      (d i).Nearest (schedule b.doubling base limit i) ∧
      (Double.Fits base → Double.Fits limit →
        (d i).rational? = some (schedule b.doubling base limit i))
  /-- Delays that start below their limit never fall and never exceed it. -/
  capped : base ≤ limit → ∀ i j, i ≤ j →
    schedule b.doubling base limit i ≤ schedule b.doubling base limit j ∧
      schedule b.doubling base limit j ≤ limit

variable {ι α : Type} {b : Backoff} {outcomes : ℕ → Except Failure α} {shown : ℕ → List Event}
  {arguments : ι}

/-- Doubles are always within their range, and so are the delays made of them. -/
theorem Timed.of_fits {n : ℤ} {base limit : ℚ} (attempts : b.attempts.count? = some n)
    (most : n ≤ 1025) (start : b.base.rational? = some base)
    (bound : b.limit.rational? = some limit) (nonneg : 0 ≤ base ∧ 0 ≤ limit)
    (first : Double.Fits base) (last : Double.Fits limit)
    (small : base < (twoTo 1024 : ℕ) ∧ limit < (twoTo 1024 : ℕ)) (told : b.repeatable ≠ .unusable) :
    b.Timed n base limit where
  attempts := attempts
  most := most
  start := start
  bound := bound
  nonneg := nonneg
  range i _ := schedule_lt (first.lt_ceiling small.1) (last.lt_ceiling small.2) b.doubling i
  told := told

theorem recorded_replicate (i : ℕ) :
    Script.recorded outcomes shown arguments (List.replicate i arguments) =
      ⟨outcomes i, shown i, List.replicate (i + 1) arguments⟩ := by
  rw [Script.recorded, List.length_replicate, List.replicate_succ']

theorem called_recorded (i : ℕ) :
    called (Script.recorded outcomes shown arguments) i [] = List.replicate i arguments := by
  induction i with
  | zero => rfl
  | succ i ih => rw [called_succ, ih, recorded_replicate]

/-- Up to some number, all numbers have a property or there is a first one without it. -/
theorem exists_first (P : ℕ → Prop) (n : ℕ) : ∃ k ≤ n, (∀ i < k, P i) ∧ (k = n ∨ ¬ P k) := by
  induction n with
  | zero => exact ⟨0, le_refl 0, by simp, Or.inl rfl⟩
  | succ n ih =>
    obtain ⟨k, few, before, rfl | ends⟩ := ih
    · by_cases last : P k
      · refine ⟨k + 1, le_refl _, fun i hi => ?_, Or.inl rfl⟩
        rcases Nat.lt_succ_iff_lt_or_eq.mp hi with earlier | rfl
        · exact before i earlier
        · exact last
      · exact ⟨k, Nat.le_succ k, before, Or.inr last⟩
    · exact ⟨k, Nat.le_succ_of_le few, before, Or.inr ends⟩

/-- **One trace.** The call that ends a repetition stands behind the pauses of those in front. -/
theorem Timed.run_eq {n : ℤ} {base limit : ℚ} (timed : b.Timed n base limit) (name : Value)
    (outcomes : ℕ → Except Failure α) (shown : ℕ → List Event) (arguments : ι) {k : ℕ}
    (few : (k : ℤ) < n) (again : ∀ i < k, b.Again (outcomes i))
    (ends : n = k + 1 ∨ ¬ b.Again (outcomes k)) :
    ∃ (e : ℕ → Failure) (d : ℕ → Double),
      (∀ i < k, outcomes i = .error (e i) ∧
        (d i).Nearest (schedule b.doubling base limit i)) ∧
      b.run name (Script.recorded outcomes shown arguments) [] =
        ⟨outcomes k,
          b.course (if name.isPresent then name.bare else "operation") shown e d (k + 1),
          List.replicate (k + 1) arguments⟩ := by
  have delays : ∀ i < k, ∃ v d, b.delay i = .ok v ∧ seconds v = .ok d ∧
      d.Nearest (schedule b.doubling base limit i) := by
    intro i hi
    have most := timed.most
    exact delay_schedule timed.start timed.bound timed.nonneg.1 timed.nonneg.2 (by omega)
      (timed.range i (by omega))
  have : Nonempty Value := ⟨.null⟩
  have : Nonempty Double := ⟨.nan⟩
  have : Nonempty Failure := ⟨.noAttempt⟩
  choose! v d delay slept near using delays
  choose! e fails repeatable using again
  obtain ⟨m, left⟩ : ∃ m : ℕ, n.toNat = m + k + 1 := ⟨n.toNat - (k + 1), by omega⟩
  refine ⟨e, d, fun i hi => ⟨fails i hi, near i hi⟩, ?_⟩
  rw [run_of_count timed.attempts, left]
  refine (runFrom_trace timed.told _ (e := e) (d := d) ?delays ?again ?ends).trans ?events
  case delays =>
    intro i hi
    rw [Nat.zero_add]
    exact ⟨v i, delay i hi, slept i hi⟩
  case again =>
    intro i hi
    rw [called_recorded, recorded_replicate]
    exact ⟨fails i hi, repeatable i hi⟩
  case ends =>
    rw [called_recorded, recorded_replicate]
    exact ends.imp_left (by omega)
  case events =>
    simp only [called_recorded, recorded_replicate, Nat.zero_add]
    rfl

/-- **Reference trace.** Whatever an operation gives, a policy follows its reference. -/
theorem run_follows {n : ℤ} {base limit : ℚ} (timed : b.Timed n base limit) (name : Value)
    (outcomes : ℕ → Except Failure α) (shown : ℕ → List Event) (arguments : ι) :
    b.Follows (if name.isPresent then name.bare else "operation") n base limit outcomes shown
      arguments (b.run name (Script.recorded outcomes shown arguments) []) := by
  have unasked (nothing : n ≤ 0) : b.run name (Script.recorded outcomes shown arguments) [] =
      ⟨.error .noAttempt, [], []⟩ := by
    rw [run_of_count timed.attempts, Int.toNat_of_nonpos nothing]
    rfl
  refine ⟨?none, ?settled, ?spent, ?between, ?capped⟩
  case none =>
    intro nothing
    rw [unasked nothing]
    exact ⟨rfl, rfl⟩
  case settled =>
    intro k few again ends
    obtain ⟨e, d, _, trace⟩ := timed.run_eq name outcomes shown arguments few again (Or.inr ends)
    rw [trace]
    exact ⟨rfl, rfl⟩
  case spent =>
    intro k last again
    obtain ⟨e, d, _, trace⟩ := timed.run_eq name outcomes shown arguments (by omega)
      (fun i hi => again i (Nat.lt_succ_of_lt hi)) (Or.inl last)
    rw [trace]
    exact ⟨rfl, rfl⟩
  case between =>
    by_cases nothing : n ≤ 0
    · rw [unasked nothing]
      exact ⟨fun _ => .noAttempt, fun _ => .nan, rfl, fun i hi => absurd hi (Nat.not_lt_zero _)⟩
    · obtain ⟨k, few, again, ends⟩ := exists_first (fun i => b.Again (outcomes i)) (n.toNat - 1)
      obtain ⟨e, d, between, trace⟩ := timed.run_eq name outcomes shown arguments
        (by omega) again (ends.imp_left fun last => by omega)
      rw [trace]
      refine ⟨e, d, by rw [List.length_replicate], fun i hi => ?_⟩
      rw [List.length_replicate] at hi
      obtain ⟨fails, near⟩ := between i (Nat.lt_of_succ_lt_succ hi)
      exact ⟨fails, near, fun first bound => near.exact (fits_schedule first bound ..)⟩
  case capped =>
    intro below i j later
    exact schedule_mono timed.nonneg.1 below b.doubling later

/-- Two calls that do not get through, and then a value. -/
def late : ℕ → Except Failure Value
  | 0 => .error (.outside .connection [])
  | 1 => .error (.outside .timeout [])
  | _ => .ok (.int 7)

/-- The standard policy with an operation that gives its value late. -/
def waited : Trace (List String) Value :=
  standard.run .null (Script.recorded late (fun _ => []) "argument") []

/-- The third call gives the value, after delays of one and of two seconds. -/
theorem run_follows_late :
    waited.outcome = .ok (.int 7) ∧ waited.state = ["argument", "argument", "argument"] ∧
      ∃ e d, waited.events = standard.course "operation" (fun _ => []) e d 3 ∧
        (d 0).rational? = some 1 ∧ (d 1).rational? = some 2 := by
  have one : (Double.ofInt 1).rational? = some ((1 : ℕ) : ℚ) :=
    Double.rational_ofInt_of_few (n := 1) (by decide) (by decide)
  have thirty : (Double.ofInt 30).rational? = some ((30 : ℕ) : ℚ) :=
    Double.rational_ofInt_of_few (n := 30) (by decide) (by decide)
  have low : ((1 : ℕ) : ℚ) < (twoTo 1024 : ℕ) := Nat.cast_lt.mpr (by decide +kernel)
  have high : ((30 : ℕ) : ℚ) < (twoTo 1024 : ℕ) := Nat.cast_lt.mpr (by decide +kernel)
  have timed : standard.Timed 3 (1 : ℕ) (30 : ℕ) :=
    .of_fits rfl (by decide) one thirty ⟨Nat.cast_nonneg 1, Nat.cast_nonneg 30⟩
      (Double.fits_natCast (by decide)) (Double.fits_natCast (by decide)) ⟨low, high⟩ (by decide)
  have follows : standard.Follows "operation" 3 (1 : ℕ) (30 : ℕ) late (fun _ => []) "argument"
      waited := run_follows timed .null late (fun _ => []) "argument"
  have again : ∀ i < 2, standard.Again (late i) := by
    intro i early
    match i with
    | 0 => exact ⟨_, rfl, rfl⟩
    | 1 => exact ⟨_, rfl, rfl⟩
  have settles : ¬ standard.Again (late 2) := by
    rintro ⟨e, fails, _⟩
    cases fails
  obtain ⟨outcome, calls⟩ := follows.settled 2 (by decide) again settles
  obtain ⟨e, d, events, delays⟩ := follows.between
  rw [calls] at events delays
  have exact (i : ℕ) (early : i + 1 < 3) :=
    (delays i early).2.2 (Double.fits_natCast (by decide)) (Double.fits_natCast (by decide))
  refine ⟨outcome, calls, e, d, events, ?_, ?_⟩
  · rw [exact 0 (by decide)]
    norm_num [schedule, standard]
  · rw [exact 1 (by decide)]
    norm_num [schedule, standard]

end Backoff

end ProofGate
