import ProofGate.Proofs.Gate.Reports
import ProofGate.Proofs.Tally

/-!
# Rows of answers

A batch is the gate asked about its entries one after the other, each time with the state that the
verifier was left in, up to the first entry left undecided. What it tallies, and what the verifier
is asked on the way, is read off that row of answers.
-/

namespace ProofGate

/-- Something to be reviewed, under a label. -/
structure Entry where
  label : Value
  submission : Submission
  query : Query

def Entry.item (x : Entry) : Gate.Item :=
  ⟨x.label, x.submission.offer, x.query⟩

/-- What a verifier is asked: the numbers of a bundle, and nothing about words that make none. -/
def Submission.asks (o : Submission) : List (List ℕ × List ℕ) :=
  match o.read with
  | .ok b => [(b.proof, b.inputs)]
  | .error _ => []

namespace Gate

variable {σ : Type}

/-! ## Answers in a row -/

abbrev Answer := Except Failure (List ℕ)

/-- An answer that says nothing of the proof. -/
def undecided : Answer → Bool
  | .ok _ => false
  | .error e => e.isA .transient

/-- What the runs of entries end in, one after the other, as if no run stopped the row. -/
def outcomes {α : Type} (run : Entry → Run σ α) (s : σ) : List Entry → List (Except Failure α)
  | [] => []
  | x :: xs => (run x s).outcome :: outcomes run (run x s).state xs

/-- What a gate says to entries. -/
def answers (g : Gate σ) (s : σ) (xs : List Entry) : List Answer :=
  outcomes (fun x => g.release x.submission.offer x.query) s xs

/-- How a gate reviews entries. -/
def reports (g : Gate σ) (s : σ) (xs : List Entry) : List (Except Failure (Report (List ℕ))) :=
  outcomes (fun x => g.review x.submission.offer x.query) s xs

/-- A review that ends with a critical finding. -/
def critical : Except Failure (Report (List ℕ)) → Bool
  | .ok r => r.hasCritical
  | .error _ => false

/-- How many entries there are up to the first undecided one, that one included. -/
def reach (g : Gate σ) (s : σ) (xs : List Entry) : ℕ :=
  min ((g.answers s xs).findIdx undecided + 1) xs.length

/-- The entries that a batch comes to, each with what the gate says to it. -/
def heard (g : Gate σ) (s : σ) (xs : List Entry) : List (Entry × Answer) :=
  (xs.zip (g.answers s xs)).take (g.reach s xs)

theorem length_outcomes {α : Type} (run : Entry → Run σ α) (s : σ) (xs : List Entry) :
    (outcomes run s xs).length = xs.length := by
  induction xs generalizing s with
  | nil => rfl
  | cons x xs ih => rw [outcomes, List.length_cons, ih, List.length_cons]

theorem answers_cons (g : Gate σ) (s : σ) (x : Entry) (xs : List Entry) :
    g.answers s (x :: xs) = (g.release x.submission.offer x.query s).outcome ::
      g.answers (g.release x.submission.offer x.query s).state xs := rfl

theorem reports_cons (g : Gate σ) (s : σ) (x : Entry) (xs : List Entry) :
    g.reports s (x :: xs) = (g.review x.submission.offer x.query s).outcome ::
      g.reports (g.review x.submission.offer x.query s).state xs := rfl

theorem length_heard (g : Gate σ) (s : σ) (xs : List Entry) :
    (g.heard s xs).length = g.reach s xs := by
  rw [heard, List.length_take, List.length_zip, answers, length_outcomes, Nat.min_self, reach,
    answers]
  omega

theorem reach_cons (g : Gate σ) (s : σ) (x : Entry) (xs : List Entry) :
    g.reach s (x :: xs) =
      if undecided (g.release x.submission.offer x.query s).outcome then 1
      else g.reach (g.release x.submission.offer x.query s).state xs + 1 := by
  rw [reach, answers_cons, List.findIdx_cons, List.length_cons]
  cases undecided (g.release x.submission.offer x.query s).outcome with
  | true => simp
  | false =>
    simp only [cond_false, Bool.false_eq_true, if_false, reach]
    omega

/-- A batch goes on behind an entry unless that is left undecided. -/
theorem heard_cons (g : Gate σ) (s : σ) (x : Entry) (xs : List Entry) :
    g.heard s (x :: xs) = (x, (g.release x.submission.offer x.query s).outcome) ::
      if undecided (g.release x.submission.offer x.query s).outcome then []
      else g.heard (g.release x.submission.offer x.query s).state xs := by
  rw [heard, reach_cons, answers_cons, List.zip_cons_cons]
  split
  · rfl
  · rfl

/-- Every answer is that of some run. -/
theorem mem_heard {g : Gate σ} {s : σ} {xs : List Entry} {r : Entry × Answer}
    (h : r ∈ g.heard s xs) :
    ∃ s', (g.release r.1.submission.offer r.1.query s').outcome = r.2 := by
  induction xs generalizing s with
  | nil => simp [heard] at h
  | cons x xs ih =>
    rw [heard_cons, List.mem_cons] at h
    obtain rfl | h := h
    · exact ⟨s, rfl⟩
    · split at h
      · simp at h
      · exact ih h

/-! ## Tallies of answers -/

/-- The entries that are released, each with its values. -/
def gains (row : List (Entry × Answer)) : List (Entry × List ℕ) :=
  row.filterMap fun r => match r.2 with
    | .ok values => some (r.1, values)
    | .error _ => none

/-- The entries that are not, each with the failure. -/
def losses (row : List (Entry × Answer)) : List (Entry × Failure) :=
  row.filterMap fun r => match r.2 with
    | .ok _ => none
    | .error e => some (r.1, e)

/-- The tags of entries, as the keys that they are counted under. -/
def keys (released : List (Entry × List ℕ)) : List Value :=
  released.map fun g => .int g.1.query.identifier.toNat

theorem discrete_keys (released : List (Entry × List ℕ)) : ∀ key ∈ keys released, key.Discrete := by
  rw [keys, List.forall_mem_map]
  exact fun g _ => trivial

theorem under_keys (released : List (Entry × List ℕ)) (n : Int) :
    Tally.under ((keys released).foldl Tally.count []) (.int n) =
      released.countP fun g => (g.1.query.identifier.toNat : Int) == n := by
  rw [Tally.under_foldl (discrete_keys released), keys, List.countP_map]
  rfl

/-- The finding that an entry leaves with a failure, under the label of that entry. -/
def found (r : Entry × Failure) : List Finding :=
  (finding r.1.query r.2).toList.map (labelled r.1.label)

/-- Books an answer. -/
def book (t : Tally) (r : Entry × Answer) : Tally :=
  match r.2 with
  | .ok values =>
    t.accept (.int r.1.query.identifier.toNat) r.1.label (.list (values.map fun n : ℕ => .int n))
  | .error e => t.reject (found (r.1, e))

/-- What is booked is what the entries gain and lose, each kind in its order. -/
theorem foldl_book (row : List (Entry × Answer)) (t : Tally) :
    row.foldl book t =
      { accepted := t.accepted + (gains row).length
        rejected := t.rejected + (losses row).length
        byIdentifier := (keys (gains row)).foldl Tally.count t.byIdentifier
        findings := t.findings ++ (losses row).flatMap found
        results := t.results ++ (gains row).map fun g =>
          (g.1.label, .list (g.2.map fun n : ℕ => .int n)) } := by
  induction row generalizing t with
  | nil => simp [gains, losses, keys]
  | cons r row ih =>
    obtain ⟨x, answer⟩ := r
    rw [List.foldl_cons, ih]
    cases answer with
    | ok values =>
      simp only [book, Tally.accept, gains, losses, keys, List.filterMap_cons, List.length_cons,
        List.map_cons, List.foldl_cons, List.append_assoc, List.singleton_append]
      congr 1
      omega
    | error e =>
      simp only [book, Tally.reject, gains, losses, List.filterMap_cons, List.length_cons,
        List.flatMap_cons, List.append_assoc]
      congr 1
      omega

theorem mem_gains {row : List (Entry × Answer)} {g : Entry × List ℕ} :
    g ∈ gains row ↔ (g.1, .ok g.2) ∈ row := by
  rw [gains, List.mem_filterMap]
  constructor
  · rintro ⟨⟨x, answer⟩, inside, same⟩
    cases answer <;> cases same
    exact inside
  · intro inside
    exact ⟨_, inside, rfl⟩

theorem mem_losses {row : List (Entry × Answer)} {r : Entry × Failure} :
    r ∈ losses row ↔ (r.1, .error r.2) ∈ row := by
  rw [losses, List.mem_filterMap]
  constructor
  · rintro ⟨⟨x, answer⟩, inside, same⟩
    cases answer <;> cases same
    exact inside
  · intro inside
    exact ⟨_, inside, rfl⟩

theorem length_gains_add_losses (row : List (Entry × Answer)) :
    (gains row).length + (losses row).length = row.length := by
  induction row with
  | nil => rfl
  | cons r row ih =>
    obtain ⟨x, answer⟩ := r
    cases answer <;>
      simp only [gains, losses, List.filterMap_cons, List.length_cons] at ih ⊢ <;> omega

/-! ## Batches as rows of answers -/

/-- The state that a batch leaves a verifier in. -/
def left (g : Gate σ) (s : σ) : List Entry → σ
  | [] => s
  | x :: xs =>
    let t := g.release x.submission.offer x.query s
    if undecided t.outcome then t.state else left g t.state xs

section Tame

variable {pairing : Pairing σ}

theorem hasCritical_fail {q : Query} {e : Failure} {stage : Stage} {f : Finding}
    (tells : Finds q e stage f) :
    (Report.fail f : Report (List ℕ)).hasCritical = e.isA .transient := by
  show (f.severity == .critical || false) = _
  rw [tells.severity]
  cases e.isA .transient <;> rfl

/-- **One row.** A batch books the answers that it comes to. -/
theorem reviewFrom_heard (tame : pairing.Tame) (circuit : Int) (xs : List Entry) (t : Tally)
    (s : σ) :
    ((ofCircuit pairing circuit).reviewFrom t (xs.map Entry.item) s).outcome =
        .ok (((ofCircuit pairing circuit).heard s xs).foldl book t) ∧
      ((ofCircuit pairing circuit).reviewFrom t (xs.map Entry.item) s).state =
        (ofCircuit pairing circuit).left s xs := by
  -- Tally and state are what the entries in front have left.
  induction xs generalizing t s with
  | nil => exact ⟨rfl, rfl⟩
  | cons x xs ih =>
    have reviewed := review_apply (ofCircuit pairing circuit) x.submission.offer x.query s
    rw [List.map_cons, reviewFrom, heard_cons, left]
    cases run : ((ofCircuit pairing circuit).release x.submission.offer x.query s).outcome with
    | ok values =>
      have accepted : ((ofCircuit pairing circuit).review x.submission.offer x.query s).outcome =
          .ok (.ok values) := by
        rw [reviewed, run]
        rfl
      obtain ⟨outcome, state⟩ := ih (book t (x, .ok values))
        ((ofCircuit pairing circuit).release x.submission.offer x.query s).state
      rw [Entry.item, Run.bind_apply_ok accepted, reviewed]
      exact ⟨outcome, state⟩
    | error e =>
      obtain ⟨f, stage, finds, _, tells⟩ := finding_of_failure tame run
      have rejected : ((ofCircuit pairing circuit).review x.submission.offer x.query s).outcome =
          .ok (.fail f) := by
        rw [reviewed, run, reported, finds]
      have booked : t.reject ((Report.fail f : Report (List ℕ)).findings.map (labelled x.label)) =
          book t (x, .error e) := by
        show _ = t.reject ((finding x.query e).toList.map (labelled x.label))
        rw [finds]
        rfl
      obtain ⟨outcome, state⟩ := ih (book t (x, .error e))
        ((ofCircuit pairing circuit).release x.submission.offer x.query s).state
      rw [Entry.item, Run.bind_apply_ok rejected, reviewed]
      dsimp only
      rw [booked, hasCritical_fail tells, undecided]
      cases e.isA .transient with
      | true => exact ⟨rfl, rfl⟩
      | false => exact ⟨outcome, state⟩

/-- A review is critical if the answer is undecided. -/
theorem critical_review (tame : pairing.Tame) (circuit : Int) (x : Entry) (s : σ) :
    critical ((ofCircuit pairing circuit).review x.submission.offer x.query s).outcome =
      undecided ((ofCircuit pairing circuit).release x.submission.offer x.query s).outcome := by
  rw [review_apply]
  cases run : ((ofCircuit pairing circuit).release x.submission.offer x.query s).outcome with
  | ok values => rfl
  | error e =>
    obtain ⟨f, stage, finds, _, tells⟩ := finding_of_failure tame run
    rw [reported, finds]
    exact hasCritical_fail tells

theorem critical_reports (tame : pairing.Tame) (circuit : Int) (xs : List Entry) (s : σ) :
    ((ofCircuit pairing circuit).reports s xs).map critical =
      ((ofCircuit pairing circuit).answers s xs).map undecided := by
  induction xs generalizing s with
  | nil => rfl
  | cons x xs ih =>
    rw [reports_cons, answers_cons, List.map_cons, List.map_cons, critical_review tame, ih, review_apply]

theorem reach_eq_reports (tame : pairing.Tame) (circuit : Int) (xs : List Entry) (s : σ) :
    (ofCircuit pairing circuit).reach s xs =
      min (((ofCircuit pairing circuit).reports s xs).findIdx critical + 1) xs.length := by
  have same := congrArg (List.findIdx id) (critical_reports tame circuit xs s)
  rw [List.findIdx_map, List.findIdx_map, Function.id_comp, Function.id_comp] at same
  rw [reach, same]

theorem reviewAll_heard (tame : pairing.Tame) (circuit : Int) (xs : List Entry) (s : σ) :
    ((ofCircuit pairing circuit).reviewAll (xs.map Entry.item) s).outcome =
        .ok (((ofCircuit pairing circuit).heard s xs).foldl book Tally.empty) ∧
      ((ofCircuit pairing circuit).reviewAll (xs.map Entry.item) s).state =
        (ofCircuit pairing circuit).left s xs := by
  obtain ⟨outcome, state⟩ := reviewFrom_heard tame circuit xs Tally.empty s
  rw [reviewAll, Run.bind_apply_ok outcome]
  exact ⟨rfl, state⟩

end Tame

/-! ## What the verifier is asked -/

/-- A record changes nothing, and takes down what the verifier is asked. -/
theorem release_recorded (pairing : Pairing σ) (circuit : Int) (o : Submission) (q : Query) (s : σ)
    (calls : List (List ℕ × List ℕ)) :
    (ofCircuit pairing.recorded circuit).release o.offer q (s, calls) =
      ⟨((ofCircuit pairing circuit).release o.offer q s).outcome,
        ((ofCircuit pairing circuit).release o.offer q s).events,
        (((ofCircuit pairing circuit).release o.offer q s).state, calls ++ o.asks)⟩ := by
  cases read : o.read with
  | error e =>
    have parts := Submission.parts_of_unread read
    rw [release_unread parts, release_unread parts, Submission.asks, read, List.append_nil]
  | ok b =>
    have parts := Submission.parts_of_read read
    rw [Submission.asks, read]
    cases asked : (pairing b.proof b.inputs s).outcome with
    | error e =>
      have recorded : (pairing.recorded b.proof b.inputs (s, calls)).outcome = .error e := asked
      rw [release_refused (g := ofCircuit pairing circuit) parts asked,
        release_refused (g := ofCircuit pairing.recorded circuit) parts recorded]
      rfl
    | ok _ =>
      have recorded : (pairing.recorded b.proof b.inputs (s, calls)).outcome = .ok () := asked
      have plain := release_guarded pairing read asked circuit q
      rw [plain, release_guarded pairing.recorded read recorded circuit q]
      cases Guard.verdict (guards circuit b q) <;> rfl

/-- The verifier is asked about the entries that a batch comes to, and about no other. -/
theorem left_recorded (pairing : Pairing σ) (circuit : Int) (xs : List Entry) (s : σ)
    (calls : List (List ℕ × List ℕ)) :
    ((ofCircuit pairing.recorded circuit).left (s, calls) xs).2 =
      calls ++ (xs.take ((ofCircuit pairing circuit).reach s xs)).flatMap
        fun x => x.submission.asks := by
  induction xs generalizing s calls with
  | nil => exact (List.append_nil calls).symm
  | cons x xs ih =>
    rw [left, reach_cons, release_recorded]
    dsimp only
    split
    · rw [List.take_succ_cons, List.take_zero, List.flatMap_singleton]
    · rw [ih, List.take_succ_cons, List.flatMap_cons, List.append_assoc]

end Gate

theorem Pairing.Tame.recorded {σ : Type} {pairing : Pairing σ} (tame : pairing.Tame) :
    pairing.recorded.Tame :=
  fun proof inputs s e failed => tame proof inputs s.1 e failed

end ProofGate
