import ProofGate.Review
import ProofGate.Proofs.Gate.Answers

/-!
# Reports of a gate

A review says all that a run of the gate says. What is released is reported with its values; what
fails becomes one finding, named after the check that failed. With a pairing that only rejects or
gives no answer nothing else can happen, whatever is offered.
-/

namespace ProofGate

/-- A pairing that fails with a rejection of its own or for want of an answer, and not otherwise. -/
def Pairing.Tame {σ : Type} (pairing : Pairing σ) : Prop :=
  ∀ proof inputs s e, (pairing proof inputs s).outcome = .error e →
    e.isA .primitive = true ∨ e.isA .transient = true

/-! ## Kinds -/

theorem Kind.isA_primitive_iff {k : Kind} :
    k.isA .primitive = true ↔ k = .primitive ∨ k = .proofInvalid ∨ k = .inputOutsideField := by
  cases k with
  | mismatch field => cases field <;> decide
  | _ => decide

theorem Kind.isA_transient_iff {k : Kind} :
    k.isA .transient = true ↔ k = .transient ∨ k = .transport := by
  cases k with
  | mismatch field => cases field <;> decide
  | _ => decide

/-- A statement that does not match is rejected for one of its members. -/
theorem Matching.kind_of_check {s : Statement} {q : Query} {e : Failure}
    (h : check s q = .error e) : ∃ field, e.kind = .mismatch field := by
  rw [check_eq_verdict, Guard.verdict_eq_error] at h
  obtain ⟨before, g, behind, row, _, _, rfl⟩ := h
  have inside : g ∈ members s q ++ [identifiers s q] := by rw [row]; simp
  simp only [members, List.cons_append, List.nil_append, List.mem_cons, List.not_mem_nil,
    or_false] at inside
  rcases inside with rfl | rfl | rfl | rfl | rfl | rfl | rfl
  all_goals exact ⟨_, rfl⟩

namespace Gate

variable {σ : Type}

/-! ## Where a run ends -/

/-- The checks of a gate in their order. -/
inductive Stage where
  | bundle
  | primitive
  | binding
  | validator
  | extractor
deriving Repr, DecidableEq

def Stage.name : Stage → String
  | bundle => "bundle"
  | primitive => "primitive"
  | binding => "binding"
  | validator => "validator"
  | extractor => "extractor"

/-- A bundle names the circuit and the digest of the statement that it holds. -/
def Bound (circuit : Int) (b : Bundle) : Prop :=
  ((b.inputs.getD 0 0 : ℕ) : Int) = circuit ∧
    b.inputs.getD 2 0 = Binding.statementDigest b.statement

/-- A run ends at a check if it passes all those in front of it and fails this one. -/
inductive Ends (pairing : Pairing σ) (circuit : Int) (o : Submission) (q : Query) (s : σ) :
    Stage → Prop where
  | bundle {e : Failure} : o.read = .error e → Ends pairing circuit o q s .bundle
  | primitive {b : Bundle} {e : Failure} : o.read = .ok b →
      (pairing b.proof b.inputs s).outcome = .error e → Ends pairing circuit o q s .primitive
  | binding {b : Bundle} : o.read = .ok b → (pairing b.proof b.inputs s).outcome = .ok () →
      ¬ Bound circuit b → Ends pairing circuit o q s .binding
  | validator {b : Bundle} : o.read = .ok b → (pairing b.proof b.inputs s).outcome = .ok () →
      Bound circuit b → ¬ Matching.Agrees (Statement.ofBuffer b.statement) q →
      Ends pairing circuit o q s .validator
  | extractor {b : Bundle} : o.read = .ok b → (pairing b.proof b.inputs s).outcome = .ok () →
      Bound circuit b → Matching.Agrees (Statement.ofBuffer b.statement) q →
      (Statement.ofBuffer b.statement).identifier ≠ 67 →
      (Statement.ofBuffer b.statement).identifier ≠ 88 → Ends pairing circuit o q s .extractor

/-- A bundle that is not bound is rejected for its circuit or its digest. -/
theorem verdict_unbound {circuit : Int} {b : Bundle} (free : ¬ Bound circuit b) (q : Query) :
    ∃ e, Guard.verdict (guards circuit b q) = .error e ∧
      (e.kind = .circuitMismatch ∨ e.kind = .digestMismatch) := by
  rw [guards_eq, front_eq, List.cons_append]
  cases circuits : (Binding.circuits circuit (b.inputs.getD 0 0)).passes with
  | false => exact ⟨_, Guard.verdict_fail circuits _, Or.inl rfl⟩
  | true =>
    rw [Guard.verdict_pass circuits]
    cases digests : (Binding.digests (b.inputs.getD 2 0) b.statement).passes with
    | false => exact ⟨_, Guard.verdict_fail digests _, Or.inr rfl⟩
    | true => exact absurd ⟨beq_iff_eq.mp circuits, beq_iff_eq.mp digests⟩ free

/-- Behind the pairing the kind of a failure tells the check. -/
theorem ends_of_verdict {pairing : Pairing σ} {circuit : Int} {o : Submission} {q : Query} {s : σ}
    {b : Bundle} {e : Failure} (read : o.read = .ok b)
    (holds : (pairing b.proof b.inputs s).outcome = .ok ())
    (rejects : Guard.verdict (guards circuit b q) = .error e) :
    ∃ stage, Ends pairing circuit o q s stage ∧ source e.kind = stage.name := by
  by_cases bound : Bound circuit b
  · rw [verdict_bound q bound.1 bound.2, bind_eq_error] at rejects
    obtain differs | ⟨_, agrees, rejects⟩ := rejects
    · have disagrees : ¬ Matching.Agrees (Statement.ofBuffer b.statement) q := by
        intro agrees
        rw [Matching.check_eq_ok_iff.mpr agrees] at differs
        cases differs
      obtain ⟨field, kind⟩ := Matching.kind_of_check differs
      refine ⟨.validator, .validator read holds bound disagrees, ?_⟩
      rw [kind]
      cases field <;> rfl
    · rw [Guard.verdict_single] at rejects
      split at rejects
      · cases rejects
      · next fails =>
        obtain ⟨nft, erc20⟩ := Release.tags_reject.mp (Bool.eq_false_iff.mpr fails)
        cases rejects
        exact ⟨.extractor, .extractor read holds bound (Matching.check_eq_ok_iff.mp agrees) nft
          erc20, rfl⟩
  · obtain ⟨_, rejected, kind⟩ := verdict_unbound bound q
    rw [rejected] at rejects
    cases rejects
    refine ⟨.binding, .binding read holds bound, ?_⟩
    obtain kind | kind := kind <;> rw [kind] <;> rfl

/-- What the guards behind a pairing reject with is decided. -/
theorem decided_of_verdict {circuit : Int} {b : Bundle} {q : Query} {e : Failure}
    (rejects : Guard.verdict (guards circuit b q) = .error e) :
    e.isA .rejection = true ∧ e.isA .transient = false := by
  obtain ⟨before, g, behind, row, _, _, rfl⟩ := Guard.verdict_eq_error.mp rejects
  have listed : g.failure.kind ∈ order := by
    rw [← kinds_guards circuit b q, row]
    simp
  have all : ∀ k ∈ order, k.isA .rejection = true ∧ k.isA .transient = false := by decide
  exact all _ listed

/-- What a pairing rejects of its own is decided as well, and told by its source. -/
theorem decided_of_primitive {e : Failure} (own : e.isA .primitive = true) :
    e.isA .rejection = true ∧ e.isA .transient = false ∧ source e.kind = Stage.primitive.name := by
  rw [Failure.isA, Kind.isA_primitive_iff] at own
  rw [Failure.isA, Failure.isA]
  obtain kind | kind | kind := own <;> rw [kind] <;> exact ⟨rfl, rfl, rfl⟩

/-- Nothing is rejected for want of an answer. -/
theorem not_rejection_of_transient {e : Failure} (away : e.isA .transient = true) :
    e.isA .rejection = false := by
  rw [Failure.isA, Kind.isA_transient_iff] at away
  rw [Failure.isA]
  obtain kind | kind := away <;> rw [kind] <;> rfl

/-- **Where a run ends.** A run fails with a rejection that belongs to the check it ends at, or for
want of an answer at the pairing. -/
theorem ends_of_failure {pairing : Pairing σ} (tame : pairing.Tame) {circuit : Int}
    {o : Submission} {q : Query} {s : σ} {e : Failure}
    (failed : ((ofCircuit pairing circuit).release o.offer q s).outcome = .error e) :
    (e.isA .rejection = true ∧ e.isA .transient = false ∧
      ∃ stage, Ends pairing circuit o q s stage ∧ source e.kind = stage.name) ∨
    (e.isA .rejection = false ∧ e.isA .transient = true ∧
      Ends pairing circuit o q s .primitive) := by
  -- The run ends in front of the pairing, at it, or at a guard behind it.
  cases read : o.read with
  | error f =>
    rw [release_unread (Submission.parts_of_unread read)] at failed
    cases failed
    have kind := Submission.kind_of_read read
    rw [Failure.isA, Failure.isA, kind]
    exact Or.inl ⟨rfl, rfl, .bundle, .bundle read, rfl⟩
  | ok b =>
    cases asked : (pairing b.proof b.inputs s).outcome with
    | error f =>
      rw [release_refused (g := ofCircuit pairing circuit) (Submission.parts_of_read read)
        asked] at failed
      cases failed
      have ends : Ends pairing circuit o q s .primitive := .primitive read asked
      obtain own | away := tame _ _ _ _ asked
      · obtain ⟨rejection, settled, named⟩ := decided_of_primitive own
        exact Or.inl ⟨rejection, settled, .primitive, ends, named⟩
      · exact Or.inr ⟨not_rejection_of_transient away, away, ends⟩
    | ok _ =>
      rw [release_guarded pairing read asked, closed_outcome, map_eq_error] at failed
      obtain ⟨rejection, settled⟩ := decided_of_verdict failed
      exact Or.inl ⟨rejection, settled, ends_of_verdict read asked failed⟩

/-! ## Reports -/

/-- The report of an outcome, unless it is a failure that says nothing of the kind. -/
def reported (q : Query) : Except Failure (List ℕ) → Except Failure (Report (List ℕ))
  | .ok values => .ok (.ok values)
  | .error e =>
    match finding q e with
    | some f => .ok (.fail f)
    | none => .error e

/-- A review is a run with its outcome reported. -/
theorem review_apply (g : Gate σ) (offer : Offer) (q : Query) (s : σ) :
    g.review offer q s = ⟨reported q (g.release offer q s).outcome, (g.release offer q s).events,
      (g.release offer q s).state⟩ := by
  rw [review, Run.bind_apply_ok (a := (g.release offer q s).outcome) (by rw [Run.attempt_apply])]
  generalize ht : g.release offer q s = t
  obtain ⟨outcome, events, state⟩ := t
  cases outcome with
  | ok values => simp [reported, Run.after, ht]
  | error e => cases hf : finding q e <;> simp [reported, hf, Run.after, ht]

/-- Success is reported with the values that are released. -/
theorem review_eq_ok_iff {g : Gate σ} {offer : Offer} {q : Query} {s : σ} {values : List ℕ} :
    (g.review offer q s).outcome = .ok (.ok values) ↔
      (g.release offer q s).outcome = .ok values := by
  rw [review_apply]
  cases (g.release offer q s).outcome with
  | ok vs => simp [reported, Report.ok]
  | error e => cases found : finding q e <;> simp [reported, found, Report.fail, Report.ok]

/-- What a finding says of a failure at a check. -/
structure Finds (q : Query) (e : Failure) (stage : Stage) (f : Finding) : Prop where
  reason : f.reason? = some (.text e.kind.name)
  severity : f.severity = if e.isA .transient then .critical else .error
  source : f.source = .text stage.name
  context : f.context = .object (context q)

theorem finding_of_failure {pairing : Pairing σ} (tame : pairing.Tame) {circuit : Int}
    {o : Submission} {q : Query} {s : σ} {e : Failure}
    (failed : ((ofCircuit pairing circuit).release o.offer q s).outcome = .error e) :
    ∃ f stage, finding q e = some f ∧ Ends pairing circuit o q s stage ∧ Finds q e stage f := by
  obtain ⟨own, settled, stage, ends, named⟩ | ⟨foreign, away, ends⟩ := ends_of_failure tame failed
  · rw [finding, if_pos own]
    refine ⟨_, stage, rfl, ends, ⟨rfl, ?_, ?_, rfl⟩⟩
    · rw [settled]
      rfl
    · rw [named]
  · rw [finding, foreign, if_neg Bool.false_ne_true, if_pos away]
    refine ⟨_, .primitive, rfl, ends, ⟨rfl, ?_, rfl, rfl⟩⟩
    rw [away]
    rfl

/-- **Reports.** With a pairing that only rejects or gives no answer a review always ends in a
report: the values that are released and nothing else, or one finding that tells the failure of the
run, how grave it is and the check at which the run ended. -/
theorem review_reported {pairing : Pairing σ} (tame : pairing.Tame) (circuit : Int)
    (o : Submission) (q : Query) (s : σ) :
    ∃ r, ((ofCircuit pairing circuit).review o.offer q s).outcome = .ok r ∧
      (∀ values, ((ofCircuit pairing circuit).release o.offer q s).outcome = .ok values →
        r = ⟨true, some values, []⟩) ∧
      (∀ e, ((ofCircuit pairing circuit).release o.offer q s).outcome = .error e →
        ∃ f stage, r = ⟨false, none, [f]⟩ ∧ f.reason? = some (.text e.kind.name) ∧
          f.severity = (if e.isA .transient then .critical else .error) ∧
          Ends pairing circuit o q s stage ∧ f.source = .text stage.name) := by
  rw [review_apply]
  cases run : ((ofCircuit pairing circuit).release o.offer q s).outcome with
  | ok values =>
    refine ⟨.ok values, rfl, ?_, ?_⟩
    · rintro _ ⟨⟩
      rfl
    · rintro _ ⟨⟩
  | error e =>
    obtain ⟨f, stage, found, ends, finds⟩ := finding_of_failure tame run
    refine ⟨.fail f, by rw [reported, found], ?_, ?_⟩
    · rintro _ ⟨⟩
    · rintro _ ⟨⟩
      exact ⟨f, stage, rfl, finds.reason, finds.severity, ends, finds.source⟩

end Gate

/-! ## Reports of the sample -/

/-- A pairing whose verifier is never reached. -/
def Sample.away : Pairing Unit :=
  fun _ _ => Run.fail (.verifierUnreachable (.int 1) (.outside .timeout []))

theorem Sample.away_tame : Sample.away.Tame := by
  rintro _ _ _ _ ⟨⟩
  exact Or.inr rfl

theorem Sample.holding_tame : Pairing.Tame (fun _ _ => pure () : Pairing Unit) := by
  rintro _ _ _ _ ⟨⟩

namespace Gate

/-- Nothing at all is malformed, the sample is undecided behind a verifier that is away, and it is
released where the pairing holds. -/
theorem review_reported_sample :
    (∃ f, ((ofCircuit Sample.away 0).review (.words (.list [])) (Sample.query (.ofNat 0))
        ()).outcome = .ok ⟨false, none, [f]⟩ ∧
      f.reason? = some (.text "MalformedBundle") ∧ f.severity = .error ∧
      f.source = .text "bundle") ∧
    (∃ f, ((ofCircuit Sample.away 0).review (.bundle (Sample.bundle 0 0)) (Sample.query (.ofNat 0))
        ()).outcome = .ok ⟨false, none, [f]⟩ ∧
      f.reason? = some (.text "VerifierRpcException") ∧ f.severity = .critical ∧
      f.source = .text "primitive") ∧
    (Sample.gate.review (.bundle (Sample.bundle (Binding.statementDigest (Sample.statement 0)) 0))
      (Sample.query (.ofNat 0)) ()).outcome = .ok ⟨true, some [0, 0, 0, 0, 0], []⟩ := by
  refine ⟨?malformed, ?undecided, ?released⟩
  case malformed =>
    have unread : (Submission.words []).read = .error (.bundleSize 23 0) := rfl
    have failed := congrArg Trace.outcome (release_unread (g := ofCircuit Sample.away 0) (s := ())
      (Submission.parts_of_unread unread) (Sample.query (.ofNat 0)))
    obtain ⟨r, reports, _, rejected⟩ := review_reported Sample.away_tame 0 (.words [])
      (Sample.query (.ofNat 0)) ()
    obtain ⟨f, stage, rfl, reason, severity, ends, source⟩ := rejected _ failed
    have first : stage = .bundle := by
      cases ends with
      | bundle => rfl
      | primitive read => cases read
      | binding read => cases read
      | validator read => cases read
      | extractor read => cases read
    exact ⟨f, reports, reason, severity, source.trans (by rw [first]; rfl)⟩
  case undecided =>
    have failed : ((ofCircuit Sample.away 0).release (.bundle (Sample.bundle 0 0))
        (Sample.query (.ofNat 0)) ()).outcome = _ :=
      congrArg Trace.outcome (release_refused
        (Submission.parts_of_read (o := .bundle (Sample.bundle 0 0)) rfl) rfl _)
    obtain ⟨r, reports, _, rejected⟩ := review_reported Sample.away_tame 0
      (.bundle (Sample.bundle 0 0)) (Sample.query (.ofNat 0)) ()
    obtain ⟨f, stage, rfl, reason, severity, ends, source⟩ := rejected _ failed
    have second : stage = .primitive := by
      cases ends with
      | bundle read => cases read
      | primitive => rfl
      | binding _ holds => cases holds
      | validator _ holds => cases holds
      | extractor _ holds => cases holds
    exact ⟨f, reports, reason, severity, source.trans (by rw [second]; rfl)⟩
  case released =>
    obtain ⟨claimed, binds⟩ : ∃ n, n = Binding.statementDigest (Sample.statement 0) := ⟨_, rfl⟩
    rw [← binds]
    obtain ⟨r, reports, accepted, _⟩ := review_reported Sample.holding_tame 0
      (.bundle (Sample.bundle claimed 0)) (Sample.query (.ofNat 0)) ()
    rw [accepted _ (Sample.released binds (.ofNat 0))] at reports
    exact reports

end Gate

end ProofGate
