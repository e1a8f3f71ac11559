import ProofGate.Proofs.Run
import Mathlib.Data.List.TakeWhile
import Mathlib.Tactic.Common

/-!
# Guards

A guard either lets pass, and then has something to note, or rejects with a failure of its own.
Guards stand in a row: the first that rejects decides, those before it have noted what they had
to, and those behind it are not asked. A row neither reads nor changes the state of a verifier.
-/

namespace ProofGate

structure Guard where
  passes : Bool
  failure : Failure
  notes : List Text

namespace Guard

/-- The failure of the first guard that rejects. -/
def verdict (row : List Guard) : Except Failure Unit :=
  match row.find? fun g => !g.passes with
  | some g => .error g.failure
  | none => .ok ()

/-- What the guards before the first that rejects note. -/
def noted (row : List Guard) : List Text :=
  (row.takeWhile fun g => g.passes).flatMap fun g => g.notes

/-! ## One guard at a time -/

theorem verdict_pass {g : Guard} (h : g.passes = true) (row : List Guard) :
    verdict (g :: row) = verdict row := by
  simp [verdict, h]

theorem verdict_fail {g : Guard} (h : g.passes = false) (row : List Guard) :
    verdict (g :: row) = .error g.failure := by
  simp [verdict, h]

theorem noted_pass {g : Guard} (h : g.passes = true) (row : List Guard) :
    noted (g :: row) = g.notes ++ noted row := by
  simp [noted, h]

theorem noted_fail {g : Guard} (h : g.passes = false) (row : List Guard) :
    noted (g :: row) = [] := by
  simp [noted, h]

theorem verdict_single (g : Guard) :
    verdict [g] = if g.passes then .ok () else .error g.failure := by
  cases h : g.passes with
  | true => rw [verdict_pass h]; rfl
  | false => rw [verdict_fail h]; rfl

/-- A guard with nothing to note. -/
def demand (p : Prop) [Decidable p] (failure : Failure) : Guard :=
  ⟨decide p, failure, []⟩

theorem verdict_demand (p : Prop) [Decidable p] (failure : Failure) (row : List Guard) :
    verdict (demand p failure :: row) = if p then verdict row else .error failure := by
  by_cases h : p
  · rw [if_pos h, verdict_pass (decide_eq_true h)]
  · rw [if_neg h, verdict_fail (decide_eq_false h)]
    rfl

/-! ## Rows -/

theorem verdict_eq_ok_iff {row : List Guard} :
    verdict row = .ok () ↔ ∀ g ∈ row, g.passes = true := by
  induction row with
  | nil => simp [verdict]
  | cons g row ih =>
    rw [List.forall_mem_cons]
    cases h : g.passes with
    | true => rw [verdict_pass h, ih]; simp
    | false => rw [verdict_fail h]; simp

theorem verdict_append (row later : List Guard) :
    verdict (row ++ later) = (verdict row >>= fun _ => verdict later) := by
  induction row with
  | nil => rfl
  | cons g row ih =>
    rw [List.cons_append]
    cases h : g.passes with
    | true => rw [verdict_pass h, verdict_pass h, ih]
    | false => rw [verdict_fail h, verdict_fail h, error_bind]

theorem verdict_cons (g : Guard) (row : List Guard) :
    verdict (g :: row) = (verdict [g] >>= fun _ => verdict row) :=
  verdict_append [g] row

/-- What is in front of the first guard that rejects has noted all it had to. -/
theorem verdict_first {before : List Guard} (passed : ∀ h ∈ before, h.passes = true) {g : Guard}
    (rejects : g.passes = false) (behind : List Guard) :
    verdict (before ++ g :: behind) = .error g.failure ∧
      noted (before ++ g :: behind) = before.flatMap fun h => h.notes := by
  induction before with
  | nil => exact ⟨verdict_fail rejects behind, noted_fail rejects behind⟩
  | cons h before ih =>
    rw [List.forall_mem_cons] at passed
    obtain ⟨decides, notes⟩ := ih passed.2
    rw [List.cons_append, verdict_pass passed.1, noted_pass passed.1, decides, notes]
    exact ⟨rfl, rfl⟩

theorem noted_all {row : List Guard} (passed : ∀ g ∈ row, g.passes = true) :
    noted row = row.flatMap fun g => g.notes := by
  rw [noted, List.takeWhile_eq_self_iff.mpr passed]

theorem verdict_eq_error {row : List Guard} {e : Failure} :
    verdict row = .error e ↔ ∃ before g behind, row = before ++ g :: behind ∧
      (∀ h ∈ before, h.passes = true) ∧ g.passes = false ∧ g.failure = e := by
  constructor
  · intro h
    rw [verdict] at h
    split at h
    · next g found =>
      obtain ⟨rejects, before, behind, rfl, passed⟩ := List.find?_eq_some_iff_append.mp found
      cases h
      exact ⟨before, g, behind, rfl, by simpa using passed, by simpa using rejects, rfl⟩
    · cases h
  · rintro ⟨before, g, behind, rfl, passed, rejects, rfl⟩
    exact (verdict_first passed rejects behind).1

/-- A guard is heard only if all in front of it pass; the failure tells it from the others. -/
theorem verdict_at {before behind : List Guard} {g : Guard} {e : Failure}
    (other : ∀ h ∈ before ++ behind, h.failure ≠ e) :
    verdict (before ++ g :: behind) = .error e ↔
      verdict before = .ok () ∧ g.passes = false ∧ g.failure = e := by
  have silent {row : List Guard} (other : ∀ h ∈ row, h.failure ≠ e) : verdict row ≠ .error e := by
    intro fails
    obtain ⟨front, h, rest, rfl, _, _, same⟩ := verdict_eq_error.mp fails
    exact other h (by simp) same
  rw [List.forall_mem_append] at other
  rw [verdict_append]
  cases h : verdict before with
  | error f =>
    have distinct : f ≠ e := by
      rintro rfl
      exact silent other.1 h
    simp [distinct]
  | ok _ =>
    rw [ok_bind]
    cases passes : g.passes with
    | true => simp [verdict_pass passes, silent other.2]
    | false => simp [verdict_fail passes]

theorem verdict_last {row : List Guard} {g : Guard} {e : Failure}
    (other : ∀ h ∈ row, h.failure ≠ e) :
    verdict (row ++ [g]) = .error e ↔
      verdict row = .ok () ∧ g.passes = false ∧ g.failure = e :=
  verdict_at (by rwa [List.append_nil])

/-! ## Runs -/

/-- A line of the gate's own log. -/
def line (text : Text) : Event :=
  .logged ⟨.debug, .processor, text⟩

variable {σ α β : Type}

/-- A row as a run. -/
def course (row : List Guard) : Run σ Unit := fun s =>
  ⟨verdict row, (noted row).map line, s⟩

theorem course_cons (g : Guard) (row : List Guard) :
    (course (g :: row) : Run σ Unit) = (course [g] >>= fun _ => course row) := by
  funext s
  cases h : g.passes with
  | true =>
    have first : (course [g] s : Trace σ Unit) = ⟨.ok (), g.notes.map line, s⟩ := by
      rw [course, verdict_pass h, noted_pass h]
      simp [verdict, noted]
    rw [Run.bind_apply_ok (a := ()) (by rw [first]), first, course, verdict_pass h, noted_pass h,
      List.map_append]
    rfl
  | false =>
    have first : (course [g] s : Trace σ Unit) = ⟨.error g.failure, [], s⟩ := by
      rw [course, verdict_fail h, noted_fail h]
      rfl
    rw [Run.bind_apply_error (e := g.failure) (by rw [first]), first, course, verdict_fail h,
      noted_fail h]
    rfl

/-- Rows are walked one after the other. -/
theorem course_append (row later : List Guard) :
    (course (row ++ later) : Run σ Unit) = (course row >>= fun _ => course later) := by
  induction row with
  | nil => rfl
  | cons g row ih =>
    rw [List.cons_append, course_cons, ih, course_cons g row, bind_assoc]

/-- Guards without notes only decide. -/
theorem course_quiet {row : List Guard} (h : ∀ g ∈ row, g.notes = []) :
    (course row : Run σ Unit) = Run.ofExcept (verdict row) := by
  have silent : noted row = [] := by
    rw [noted, List.flatMap_eq_nil_iff]
    intro g hg
    exact h g (List.takeWhile_subset _ hg)
  funext s
  rw [course, silent]
  rfl

/-- A guard with one note decides and then logs it. -/
theorem course_single {g : Guard} {text : Text} (h : g.notes = [text]) :
    (course [g] : Run σ Unit) =
      (Run.ofExcept (verdict [g]) >>= fun _ => Run.log .debug .processor text) := by
  funext s
  cases hp : g.passes with
  | true =>
    rw [course, noted_pass hp, verdict_pass hp, h]
    rfl
  | false =>
    rw [course, noted_fail hp, verdict_fail hp]
    rfl

/-- What stands behind a row is reached if all guards pass. -/
theorem course_pure (row : List Guard) (a : α) (s : σ) :
    (course row >>= fun _ => pure a) s =
      ⟨(verdict row).map fun _ => a, (noted row).map line, s⟩ := by
  cases h : verdict row with
  | error e =>
    rw [Run.bind_apply_error (e := e) (by rw [course, h])]
    rfl
  | ok _ =>
    rw [Run.bind_apply_ok (a := ()) (by rw [course, h])]
    simp [course, Run.after]

/-- A check that decides like a guard, and the note behind it, are that guard. -/
theorem check_and_note {g : Guard} {check : Except Failure α} {a : α} {text : α → Text}
    (decides : check = (verdict [g]).map fun _ => a) (notes : g.notes = [text a])
    (rest : α → Run σ β) :
    (Run.ofExcept check >>= fun v => Run.log .debug .processor (text v) >>= fun _ => rest v) =
      (course [g] >>= fun _ => rest a) := by
  rw [decides, Run.ofExcept_map_bind, course_single notes, bind_assoc]

end Guard

end ProofGate
