import ProofGate.Script
import ProofGate.Proofs.Backoff

/-!
# Policies kept for later

A policy that is kept repeats as it does by itself, with one exception: an empty list of kinds,
which repeats nothing by itself, is kept as no list at all. The two differ as soon as it matters:
if there is a second attempt, and the first one fails in a way that is repeated by default.
-/

namespace ProofGate.Backoff

/-! ## What is wrong with a delay -/

variable {σ α : Type} {b : Backoff} {name : Text} {operation : Run σ α} {s : σ}
  {attempt left : ℕ}

theorem grown_failure {v : Value} {k : ℕ} {e : Failure} (failed : grown v k = .error e) :
    e = .delayTooLong ∨ e = .notInteger v := by
  cases v with
  | null | object ms =>
    cases failed
    exact Or.inr rfl
  | float x =>
    by_cases few : k < 1024
    · rw [grown, if_pos few] at failed
      cases failed
    · rw [grown, if_neg few] at failed
      cases failed
      exact Or.inl rfl
  | bool b | int n | text t | bytes bs | list vs => cases failed

theorem least_failure {v limit : Value} {e : Failure} (failed : least v limit = .error e) :
    e = .notCompared "<" limit v := by
  unfold least at failed
  split at failed
  all_goals cases failed
  rfl

theorem seconds_failure {v : Value} {e : Failure} (failed : seconds v = .error e) :
    e = .delayTooLong ∨ e = .notDecimal v := by
  unfold seconds at failed
  split at failed
  · cases failed
  · dsimp only at failed
    split at failed
    · cases failed
    · cases failed
      exact Or.inl rfl
  · cases failed
    exact Or.inr rfl

/-- What is wrong with a delay is nothing that a repetition may cure. -/
theorem delay_failure {e : Failure} (failed : (b.delay attempt >>= seconds) = .error e) :
    standardKinds.any e.isA = false := by
  have kinds (v : Value) : standardKinds.any (Failure.notDecimal v).isA = false := by
    cases v <;> rfl
  rcases bind_eq_error.mp failed with failed | ⟨v, _, failed⟩
  · unfold delay at failed
    split at failed
    · rcases bind_eq_error.mp failed with failed | ⟨w, _, failed⟩
      · rcases grown_failure failed with rfl | rfl <;> rfl
      · rw [least_failure failed]
        rfl
    · cases failed
  · rcases seconds_failure failed with rfl | rfl
    · rfl
    · exact kinds v

/-- With another attempt left, a repetition shows: in a pause, or in what is wrong with it. -/
theorem runFrom_ne (standard : b.repeatable = .standard) (again : b.Again (operation s).outcome) :
    b.runFrom name operation attempt (left + 2) s ≠ operation s := by
  obtain ⟨e, fails, repeatable⟩ := again
  intro same
  cases delayed : b.delay attempt >>= seconds with
  | error f =>
    rw [runFrom_undelayed fails repeatable delayed] at same
    have alike : Except.error f = (operation s).outcome := congrArg Trace.outcome same
    rw [fails] at alike
    cases alike
    rw [isRepeatable_standard standard, delay_failure delayed] at repeatable
    cases repeatable
  | ok d =>
    obtain ⟨v, delay, slept⟩ := bind_eq_ok.mp delayed
    rw [runFrom_again fails repeatable delay slept] at same
    have shown := congrArg (fun t => t.events.length) same
    simp only [Run.after, pause, List.length_append, List.length_cons] at shown
    omega

/-! ## By itself and kept -/

/-- A policy that repeats nothing meets a failure that it repeats once it is kept. -/
structure Overridden (b : Backoff) (outcome : Except Failure α) : Prop where
  empty : b.repeatable = .kinds []
  attempts : ∃ n, b.attempts.count? = some n ∧ 2 ≤ n
  repeated : ∃ e, outcome = .error e ∧ standardKinds.any e.isA = true

/-- Any other list, and none, is kept as it is. -/
theorem kept_eq_self (told : b.repeatable ≠ .kinds []) : b.kept = b := by
  rw [kept, if_neg told]

theorem kept_of_empty (empty : b.repeatable = .kinds []) :
    b.kept = { b with repeatable := .standard } := by
  rw [kept, if_pos empty]

theorem kept_standard (empty : b.repeatable = .kinds []) : b.kept.repeatable = .standard := by
  rw [kept_of_empty empty]

/-- Without kinds the first attempt is the last. -/
theorem runFrom_of_empty (empty : b.repeatable = .kinds []) :
    b.runFrom name operation attempt (left + 1) s = operation s := by
  refine runFrom_end (empty.trans_ne (by decide)) (Or.inr ?_)
  rintro ⟨e, _, repeatable⟩
  rw [isRepeatable, empty] at repeatable
  cases repeatable

/-- Where only one attempt is left it is the same one. -/
theorem runFrom_kept_of_last (empty : b.repeatable = .kinds []) (few : left ≤ 1) :
    b.kept.runFrom name operation attempt left s = b.runFrom name operation attempt left s := by
  obtain rfl | rfl : left = 0 ∨ left = 1 := by omega
  · rfl
  · have told : b.kept.repeatable ≠ .unusable := (kept_standard empty).trans_ne (by decide)
    rw [runFrom_of_empty empty, runFrom_end told (Or.inl rfl)]

/-- Where there is one, a second attempt makes exactly the difference that it is for. -/
theorem runFrom_kept_eq_iff (empty : b.repeatable = .kinds []) :
    b.kept.runFrom name operation attempt (left + 2) s =
        b.runFrom name operation attempt (left + 2) s ↔
      ¬ ∃ e, (operation s).outcome = .error e ∧ standardKinds.any e.isA = true := by
  have standard : b.kept.repeatable = .standard := kept_standard empty
  have again : b.kept.Again (operation s).outcome ↔
      ∃ e, (operation s).outcome = .error e ∧ standardKinds.any e.isA = true := by
    simp only [Again, isRepeatable_standard standard, Except.ok.injEq]
  rw [runFrom_of_empty empty, ← again]
  constructor
  · intro same repeated
    exact runFrom_ne standard repeated same
  · intro once
    exact runFrom_end (standard.trans_ne (by decide)) (Or.inr once)

/-- A policy is kept as it is exactly if it is not overridden. -/
theorem kept_run_eq_iff (b : Backoff) (name : Value) (operation : Run σ α) (s : σ) :
    b.kept.run name operation s = b.run name operation s ↔
      ¬ b.Overridden (operation s).outcome := by
  by_cases empty : b.repeatable = .kinds []
  · have attempts : b.kept.attempts = b.attempts := rfl
    cases count : b.attempts.count? with
    | none =>
      have same : b.kept.run name operation s = b.run name operation s := by
        simp only [run, Member.count, attempts, count, Run.ofExcept_error_bind]
      refine iff_of_true same fun overridden => ?_
      obtain ⟨n, counted, _⟩ := overridden.attempts
      rw [count] at counted
      cases counted
    | some n =>
      rw [run_of_count count, run_of_count (attempts ▸ count)]
      by_cases several : 2 ≤ n
      · obtain ⟨left, total⟩ : ∃ left, n.toNat = left + 2 := ⟨n.toNat - 2, by omega⟩
        rw [total, runFrom_kept_eq_iff empty, not_iff_not]
        exact ⟨fun repeated => ⟨empty, ⟨n, count, several⟩, repeated⟩, Overridden.repeated⟩
      · refine iff_of_true (runFrom_kept_of_last empty (by omega)) fun overridden => ?_
        obtain ⟨m, counted, two⟩ := overridden.attempts
        rw [count] at counted
        cases counted
        exact several two
  · rw [kept_eq_self empty]
    exact iff_of_true rfl fun overridden => empty overridden.empty

/-- **Kept policies.** A policy that is kept leaves the trace that it leaves by itself, unless it
repeats nothing and meets a failure that is repeated by default before its last attempt. By itself
it then ends with that failure, and kept it goes on as the policy without a list does. -/
theorem kept_run (b : Backoff) (name : Value) (operation : Run σ α) (s : σ) :
    (b.kept.run name operation s = b.run name operation s ↔
      ¬ b.Overridden (operation s).outcome) ∧
    (b.Overridden (operation s).outcome →
      b.run name operation s = operation s ∧
      b.kept.run name operation s =
        { b with repeatable := .standard }.run name operation s) := by
  refine ⟨kept_run_eq_iff b name operation s, fun overridden => ⟨?alone, ?kept⟩⟩
  case alone =>
    obtain ⟨n, count, several⟩ := overridden.attempts
    obtain ⟨left, total⟩ : ∃ left, n.toNat = left + 1 := ⟨n.toNat - 1, by omega⟩
    rw [run_of_count count, total, runFrom_of_empty overridden.empty]
  case kept => rw [kept_of_empty overridden.empty]

/-- The standard policy told to repeat nothing. -/
def once : Backoff :=
  { standard with repeatable := .kinds [] }

/-- An operation that does not get through at first. -/
def unsteady : Run ℕ Value :=
  Script.play [.error (.outside .connection []), .ok (.int 7)]

theorem once_overridden : once.Overridden (unsteady 0).outcome :=
  { empty := rfl
    attempts := ⟨3, rfl, by decide⟩
    repeated := ⟨_, rfl, rfl⟩ }

/-- By itself it is called once and fails. -/
theorem kept_run_once :
    (once.run .null unsteady 0).outcome = .error (.outside .connection []) ∧
      (once.run .null unsteady 0).state = 1 ∧
      once.kept.run .null unsteady 0 = standard.run .null unsteady 0 ∧
      once.kept.run .null unsteady 0 ≠ once.run .null unsteady 0 := by
  obtain ⟨kept, overridden⟩ := kept_run once .null unsteady 0
  obtain ⟨alone, goes⟩ := overridden once_overridden
  rw [alone]
  exact ⟨rfl, rfl, goes, fun same => kept.mp (same.trans alone.symm) once_overridden⟩

/-- **Not every policy is kept as it is.** -/
theorem not_always_kept : ¬ ∀ (b : Backoff) (name : Value) (operation : Run ℕ Value) (s : ℕ),
    b.kept.run name operation s = b.run name operation s := by
  intro always
  exact (kept_run_eq_iff once .null unsteady 0).mp (always once .null unsteady 0) once_overridden

end ProofGate.Backoff
