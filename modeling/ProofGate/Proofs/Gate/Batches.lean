import ProofGate.Proofs.Gate.Rows
import ProofGate.Proofs.Gate.Tampering
import Mathlib.Data.List.Forall2

/-!
# Batches

What the tally of a batch says is read off the answers it comes to: who was released what, who was
rejected for what, and how often each tag came up. With a verifier that has no state two batches in
a row are one.
-/

namespace ProofGate

namespace Gate

variable {σ : Type}

/-! ## Accounts -/

/-- A finding that tells why an entry is rejected, under its label. -/
structure Tells (x : Entry) (e : Failure) (f : Finding) : Prop where
  reason : f.reason? = some (.text e.kind.name)
  severity : f.severity = if e.isA .transient then .critical else .error
  context : f.context = .object (context x.query ++ [(("label" : Text), x.label)])

/-- A tally that accounts for a row of entries and answers. -/
structure Accounts (row : List (Entry × Answer)) (t : Tally) : Prop where
  accepted : t.accepted = (gains row).length
  rejected : t.rejected = (losses row).length
  /-- Those that are released, in their order, with what they are released. -/
  results : t.results = (gains row).map fun g =>
    (g.1.label, .list (g.2.map fun n : ℕ => .int n))
  /-- Those that are not, in their order, each with one finding of its own. -/
  findings : List.Forall₂ (fun r f => Tells r.1 r.2 f) (losses row) t.findings
  /-- Only the two tags are counted, each once, and nothing else. -/
  tags : ∀ c ∈ t.byIdentifier, c.1 = .int 67 ∨ c.1 = .int 88
  distinct : (t.byIdentifier.map Prod.fst).Nodup
  summed : Tally.counted t.byIdentifier = t.accepted
  counts : ∀ n : Int, Tally.under t.byIdentifier (.int n) =
    (gains row).countP fun g => (g.1.query.identifier.toNat : Int) == n
  /-- Every rejection is counted under its kind. -/
  reasons : ∃ counts, t.reasons = .ok counts ∧ Tally.counted counts = t.rejected ∧
    ∀ name : Text, Tally.under counts (.text name) =
      (losses row).countP fun r => Text.ofString r.2.kind.name == name

/-- What is released is asked for by one of the two tags. -/
theorem tag_of_released {pairing : Pairing σ} {circuit : Int} {o : Submission} {q : Query} {s : σ}
    {values : List ℕ}
    (released : ((ofCircuit pairing circuit).release o.offer q s).outcome = .ok values) :
    q.identifier.toNat = 67 ∨ q.identifier.toNat = 88 := by
  obtain ⟨b, _, _, passed⟩ := release_eq_ok_iff_guards.mp released
  obtain ⟨_, _, answers⟩ := verdict_guards.mp passed
  rw [← answers.identifier]
  exact answers.values.imp And.left And.left

/-- An entry that is rejected leaves one finding, under its own label. -/
theorem found_of_rejected {pairing : Pairing σ} (tame : pairing.Tame) {circuit : Int} {x : Entry}
    {e : Failure} {s : σ}
    (rejected : ((ofCircuit pairing circuit).release x.submission.offer x.query s).outcome =
      .error e) :
    ∃ f, found (x, e) = [f] ∧ Tells x e f := by
  obtain ⟨f, stage, finds, _, tells⟩ := finding_of_failure tame rejected
  refine ⟨labelled x.label f, ?_, ?_⟩
  · rw [found, finds]
    rfl
  · have named : labelled x.label f =
        { f with context := .object (context x.query ++ [(("label" : Text), x.label)]) } := by
      rw [labelled, tells.context]
      rfl
    rw [named]
    exact ⟨tells.reason, tells.severity, rfl⟩

/-- Findings one for each loss are those of the losses in their order. -/
theorem forall₂_found {rejected : List (Entry × Failure)}
    (one : ∀ r ∈ rejected, ∃ f, found r = [f] ∧ Tells r.1 r.2 f) :
    List.Forall₂ (fun r f => Tells r.1 r.2 f) rejected (rejected.flatMap found) := by
  induction rejected with
  | nil => exact .nil
  | cons r rejected ih =>
    rw [List.forall_mem_cons] at one
    obtain ⟨⟨f, leaves, tells⟩, rest⟩ := one
    rw [List.flatMap_cons, leaves]
    exact .cons tells (ih rest)

theorem headings_eq {rejected : List (Entry × Failure)} {findings : List Finding}
    (h : List.Forall₂ (fun r f => Tells r.1 r.2 f) rejected findings) :
    findings.map Finding.heading = rejected.map fun r => Value.text r.2.kind.name := by
  induction h with
  | nil => rfl
  | cons tells _ ih =>
    rw [List.map_cons, List.map_cons, ih, Finding.heading, tells.reason]
    rfl

theorem not_warning_of_tells {rejected : List (Entry × Failure)} {findings : List Finding}
    (h : List.Forall₂ (fun r f => Tells r.1 r.2 f) rejected findings) :
    findings.filter (fun f => f.severity != .warning) = findings := by
  induction h with
  | nil => rfl
  | @cons r f _ _ tells _ ih =>
    have grave : (f.severity != .warning) = true := by
      rw [tells.severity]
      split <;> rfl
    rw [List.filter_cons, if_pos grave, ih]

/-- Rejections are counted under their kinds. -/
theorem reasonsFrom_of_tells {rejected : List (Entry × Failure)} {findings : List Finding}
    (h : List.Forall₂ (fun r f => Tells r.1 r.2 f) rejected findings) :
    ∃ counts, Tally.reasonsFrom [] findings = .ok counts ∧
      Tally.counted counts = rejected.length ∧
      ∀ name : Text, Tally.under counts (.text name) =
        rejected.countP fun r => Text.ofString r.2.kind.name == name := by
  have kinds : ∀ key ∈ rejected.map fun r => Value.text r.2.kind.name, key.Discrete := by
    rw [List.forall_mem_map]
    exact fun r _ => trivial
  have named : ∀ f ∈ findings, f.heading.Discrete := by
    have headings := kinds
    rw [← headings_eq h, List.forall_mem_map] at headings
    exact headings
  refine ⟨(rejected.map fun r => Value.text r.2.kind.name).foldl Tally.count [], ?_, ?_, ?_⟩
  · rw [Tally.reasonsFrom_eq named, headings_eq h]
  · rw [Tally.counted_foldl, List.length_map]
    exact Nat.zero_add _
  · intro name
    rw [Tally.under_foldl kinds, List.countP_map]
    rfl

/-- **Accounts.** What a batch books accounts for the answers that it comes to. -/
theorem accounts_heard {pairing : Pairing σ} (tame : pairing.Tame) (circuit : Int) (s : σ)
    (xs : List Entry) :
    Accounts ((ofCircuit pairing circuit).heard s xs)
      (((ofCircuit pairing circuit).heard s xs).foldl book Tally.empty) := by
  have one : ∀ r ∈ losses ((ofCircuit pairing circuit).heard s xs),
      ∃ f, found r = [f] ∧ Tells r.1 r.2 f := by
    intro r hr
    obtain ⟨s', rejected⟩ := mem_heard (mem_losses.mp hr)
    exact found_of_rejected tame rejected
  have findings := forall₂_found one
  have tags : ∀ g ∈ gains ((ofCircuit pairing circuit).heard s xs),
      g.1.query.identifier.toNat = 67 ∨ g.1.query.identifier.toNat = 88 := by
    intro g hg
    obtain ⟨s', released⟩ := mem_heard (mem_gains.mp hg)
    exact tag_of_released released
  -- Nothing else of the runs counts: a tally is a function of the row.
  generalize (ofCircuit pairing circuit).heard s xs = row at findings tags
  rw [foldl_book]
  constructor
  case accepted => exact Nat.zero_add _
  case rejected => exact Nat.zero_add _
  case results => rfl
  case findings => exact findings
  case tags =>
    intro c hc
    obtain none | mem := Tally.mem_keys_foldl (List.mem_map_of_mem hc)
    · cases none
    · obtain ⟨g, hg, same⟩ := List.mem_map.mp mem
      rw [← same]
      obtain nft | erc20 := tags g hg
      · exact Or.inl (by rw [nft]; rfl)
      · exact Or.inr (by rw [erc20]; rfl)
  case distinct => exact Tally.nodup_keys_foldl (discrete_keys _)
  case summed =>
    rw [Tally.counted_foldl, keys, List.length_map]
    rfl
  case counts => exact under_keys _
  case reasons =>
    obtain ⟨counts, read, counted, under⟩ := reasonsFrom_of_tells findings
    refine ⟨counts, ?_, counted.trans (Nat.zero_add _).symm, under⟩
    rw [Tally.reasons]
    dsimp only [Tally.empty]
    rw [List.nil_append, not_warning_of_tells findings, read]

/-! ## Verifiers without a state -/

section Steady

variable {pairing : Pairing σ}

theorem release_steady (steady : pairing.Steady) (circuit : Int) (o : Submission) (q : Query)
    (s s' : σ) :
    ((ofCircuit pairing circuit).release o.offer q s).outcome =
      ((ofCircuit pairing circuit).release o.offer q s').outcome := by
  cases read : o.read with
  | error e =>
    have parts := Submission.parts_of_unread read
    rw [release_unread parts, release_unread parts]
  | ok b =>
    have parts := Submission.parts_of_read read
    have same := steady b.proof b.inputs s s'
    cases asked : (pairing b.proof b.inputs s').outcome with
    | error e =>
      rw [asked] at same
      rw [release_refused (g := ofCircuit pairing circuit) parts asked,
        release_refused (g := ofCircuit pairing circuit) parts same]
    | ok _ =>
      rw [asked] at same
      rw [release_guarded pairing read asked, release_guarded pairing read same, closed_outcome,
        closed_outcome]

theorem answers_steady (steady : pairing.Steady) (circuit : Int) (xs : List Entry) (s s' : σ) :
    (ofCircuit pairing circuit).answers s xs = (ofCircuit pairing circuit).answers s' xs := by
  induction xs generalizing s s' with
  | nil => rfl
  | cons x xs ih => rw [answers_cons, answers_cons, release_steady steady circuit _ _ s s', ih]

theorem heard_steady (steady : pairing.Steady) (circuit : Int) (xs : List Entry) (s s' : σ) :
    (ofCircuit pairing circuit).heard s xs = (ofCircuit pairing circuit).heard s' xs := by
  rw [heard, heard, reach, reach, answers_steady steady circuit xs s s']

/-- Behind entries that are all decided a batch goes on with the others. -/
theorem heard_append (steady : pairing.Steady) (circuit : Int) (xs ys : List Entry) (s : σ)
    (decided : ∀ r ∈ (ofCircuit pairing circuit).answers s xs, undecided r = false) :
    (ofCircuit pairing circuit).heard s (xs ++ ys) =
      (ofCircuit pairing circuit).heard s xs ++ (ofCircuit pairing circuit).heard s ys := by
  induction xs generalizing s with
  | nil => rfl
  | cons x xs ih =>
    rw [answers_cons, List.forall_mem_cons] at decided
    obtain ⟨first, rest⟩ := decided
    rw [List.cons_append, heard_cons, heard_cons, first]
    simp only [Bool.false_eq_true, if_false, List.cons_append]
    -- The entries behind meet another state than they do on their own, and hear the same.
    rw [ih _ rest, heard_steady steady circuit ys _ s]

end Steady

/-- Behind an entry that is left undecided a batch ends. -/
theorem heard_append_of_undecided (g : Gate σ) (xs ys : List Entry) (s : σ)
    (stops : ∃ r ∈ g.answers s xs, undecided r = true) :
    g.heard s (xs ++ ys) = g.heard s xs := by
  induction xs generalizing s with
  | nil => simp [answers, outcomes] at stops
  | cons x xs ih =>
    rw [List.cons_append, heard_cons, heard_cons]
    obtain ⟨r, inside, waits⟩ := stops
    rw [answers_cons] at inside
    cases first : undecided (g.release x.submission.offer x.query s).outcome with
    | true => rfl
    | false =>
      obtain rfl | later := List.mem_cons.mp inside
      · rw [first] at waits
        cases waits
      · simp only [Bool.false_eq_true, if_false]
        rw [ih _ ⟨r, later, waits⟩]

/-- The tally `v` is `t` and `u` put together. -/
structure Joins (t u v : Tally) : Prop where
  accepted : v.accepted = t.accepted + u.accepted
  rejected : v.rejected = t.rejected + u.rejected
  byIdentifier : ∀ n : Int, Tally.under v.byIdentifier (.int n) =
    Tally.under t.byIdentifier (.int n) + Tally.under u.byIdentifier (.int n)
  findings : v.findings = t.findings ++ u.findings
  results : v.results = t.results ++ u.results

/-- Rows one after the other are booked as one. -/
theorem joins_append (row row' : List (Entry × Answer)) :
    Joins (row.foldl book Tally.empty) (row'.foldl book Tally.empty)
      ((row ++ row').foldl book Tally.empty) := by
  have gains_append : gains (row ++ row') = gains row ++ gains row' := List.filterMap_append
  have losses_append : losses (row ++ row') = losses row ++ losses row' := List.filterMap_append
  simp only [foldl_book, gains_append, losses_append]
  constructor
  case accepted => simp only [Tally.empty, List.length_append]; omega
  case rejected => simp only [Tally.empty, List.length_append]; omega
  case byIdentifier =>
    intro n
    simp only [Tally.empty, under_keys, List.countP_append]
  case findings => simp only [Tally.empty, List.nil_append, List.flatMap_append]
  case results => simp only [Tally.empty, List.nil_append, List.map_append]

/-! ## Batches -/

/-- **Accounting.** A batch takes its entries in order up to the first that is left undecided, asks
the verifier about those and about no other, and ends in a tally that accounts for each of them. With
a verifier that has no state a batch is what its parts are: put together if the first part is
decided throughout, and else the first part alone. -/
theorem reviewAll_accounts {pairing : Pairing σ} (tame : pairing.Tame) (circuit : Int) :
    (∀ (s : σ) (xs : List Entry), ∃ t m,
      m = min (((ofCircuit pairing circuit).reports s xs).findIdx critical + 1) xs.length ∧
      ((ofCircuit pairing circuit).reviewAll (xs.map Entry.item) s).outcome = .ok t ∧
      ((ofCircuit pairing.recorded circuit).reviewAll (xs.map Entry.item) (s, [])).state.2 =
        (xs.take m).flatMap (fun x => x.submission.asks) ∧
      t.accepted + t.rejected = m ∧
      Accounts ((xs.zip ((ofCircuit pairing circuit).answers s xs)).take m) t) ∧
    (pairing.Steady → ∀ (s s' s'' : σ) (xs ys : List Entry), ∃ t u v,
      ((ofCircuit pairing circuit).reviewAll (xs.map Entry.item) s).outcome = .ok t ∧
      ((ofCircuit pairing circuit).reviewAll (ys.map Entry.item) s').outcome = .ok u ∧
      ((ofCircuit pairing circuit).reviewAll ((xs ++ ys).map Entry.item) s'').outcome = .ok v ∧
      ((∀ r ∈ (ofCircuit pairing circuit).reports s xs, critical r = false) → Joins t u v) ∧
      ((∃ r ∈ (ofCircuit pairing circuit).reports s xs, critical r = true) → v = t)) := by
  constructor
  · intro s xs
    have accounts := accounts_heard tame circuit s xs
    refine ⟨_, (ofCircuit pairing circuit).reach s xs, reach_eq_reports tame circuit xs s,
      (reviewAll_heard tame circuit xs s).1, ?calls, ?total, accounts⟩
    case calls =>
      have recorded := (reviewAll_heard (tame.recorded) circuit xs (s, [])).2
      rw [recorded, left_recorded, List.nil_append]
    case total =>
      rw [accounts.accepted, accounts.rejected, length_gains_add_losses, length_heard]
  · intro steady s s' s'' xs ys
    have flags (b : Bool) : (∃ r ∈ (ofCircuit pairing circuit).reports s xs, critical r = b) ↔
        ∃ r ∈ (ofCircuit pairing circuit).answers s xs, undecided r = b := by
      rw [← List.mem_map, critical_reports tame, List.mem_map]
    refine ⟨_, _, _, (reviewAll_heard tame circuit xs s).1, (reviewAll_heard tame circuit ys s').1,
      (reviewAll_heard tame circuit (xs ++ ys) s'').1, ?decided, ?stopped⟩
    case decided =>
      intro settled
      have decided : ∀ r ∈ (ofCircuit pairing circuit).answers s xs, undecided r = false := by
        intro r hr
        cases waits : undecided r with
        | false => rfl
        | true =>
          obtain ⟨r', hr', stops⟩ := (flags true).mpr ⟨r, hr, waits⟩
          rw [settled r' hr'] at stops
          cases stops
      rw [heard_steady steady circuit (xs ++ ys) s'' s, heard_append steady circuit xs ys s decided,
        heard_steady steady circuit ys s s']
      exact joins_append _ _
    case stopped =>
      intro stops
      rw [heard_steady steady circuit (xs ++ ys) s'' s,
        heard_append_of_undecided _ xs ys s ((flags true).mp stops)]

end Gate

/-! ## Batches of the sample -/

namespace Sample

/-- An entry that offers no words at all. -/
def blank (label : Int) : Entry :=
  ⟨.int label, .words [], query (.ofNat 0)⟩

/-- An entry that offers a bundle that names a digest. -/
def entry (label : Int) (claimed : ℕ) : Entry :=
  ⟨.int label, .bundle (bundle claimed 0), query (.ofNat 0)⟩

theorem away_steady : away.Steady :=
  fun _ _ _ _ => rfl

theorem decided_blank (g : Gate Unit) (label : Int) :
    Gate.undecided (g.release (blank label).submission.offer (blank label).query ()).outcome =
      false := by
  rw [blank, Gate.release_unread (Submission.parts_of_unread (o := .words []) rfl)]
  rfl

theorem undecided_away (label : Int) (claimed : ℕ) :
    Gate.undecided ((Gate.ofCircuit away 0).release (entry label claimed).submission.offer
      (entry label claimed).query ()).outcome = true :=
  congrArg (fun t => Gate.undecided t.outcome)
    (Gate.release_refused (g := Gate.ofCircuit away 0)
      (Submission.parts_of_read (o := .bundle (bundle claimed 0)) rfl) rfl _)

end Sample

namespace Gate

/-- Where the pairing holds what is released and what is malformed add up. Behind a verifier that is
away a batch ends with the bundle it asks about. -/
theorem reviewAll_accounts_sample :
    (∃ t u v,
      (Sample.gate.reviewAll ([Sample.entry 1 (Binding.statementDigest (Sample.statement 0))].map
        Entry.item) ()).outcome = .ok t ∧
      (Sample.gate.reviewAll ([Sample.blank 2].map Entry.item) ()).outcome = .ok u ∧
      (Sample.gate.reviewAll ([Sample.entry 1 (Binding.statementDigest (Sample.statement 0)),
        Sample.blank 2].map Entry.item) ()).outcome = .ok v ∧
      Joins t u v) ∧
    (∃ t,
      ((ofCircuit Sample.away 0).reviewAll ([Sample.blank 1, Sample.entry 2 0, Sample.blank 3].map
        Entry.item) ()).outcome = .ok t ∧
      t.accepted + t.rejected = 2 ∧
      ((ofCircuit Sample.away.recorded 0).reviewAll ([Sample.blank 1, Sample.entry 2 0,
        Sample.blank 3].map Entry.item) ((), [])).state.2 =
        [((Sample.bundle 0 0).proof, (Sample.bundle 0 0).inputs)]) ∧
    (∃ t,
      ((ofCircuit Sample.away 0).reviewAll ([Sample.entry 1 0].map Entry.item) ()).outcome = .ok t ∧
      ((ofCircuit Sample.away 0).reviewAll ([Sample.entry 1 0, Sample.blank 2].map Entry.item)
        ()).outcome = .ok t) := by
  refine ⟨?released, ?ends, ?alone⟩
  case released =>
    obtain ⟨claimed, binds⟩ : ∃ n, n = Binding.statementDigest (Sample.statement 0) := ⟨_, rfl⟩
    rw [← binds]
    obtain ⟨t, u, v, first, second, both, joins, _⟩ := (reviewAll_accounts Sample.holding_tame 0).2
      (fun _ _ _ _ => rfl) () () () [Sample.entry 1 claimed] [Sample.blank 2]
    rw [reports, outcomes, outcomes, List.forall_mem_singleton,
      critical_review Sample.holding_tame] at joins
    have accepted : (Sample.gate.release (Sample.entry 1 claimed).submission.offer
        (Sample.entry 1 claimed).query ()).outcome = .ok [0, 0, 0, 0, 0] :=
      Sample.released binds (.ofNat 0)
    exact ⟨t, u, v, first, second, both, joins (congrArg undecided accepted)⟩
  case ends =>
    obtain ⟨t, m, count, outcome, calls, total, _⟩ := (reviewAll_accounts Sample.away_tame 0).1
      () [Sample.blank 1, Sample.entry 2 0, Sample.blank 3]
    have second : m = 2 := by
      rw [count, ← reach_eq_reports Sample.away_tame, reach_cons, Sample.decided_blank,
        reach_cons, if_pos (Sample.undecided_away 2 0)]
      rfl
    rw [second] at calls total
    exact ⟨t, outcome, total, calls⟩
  case alone =>
    obtain ⟨t, u, v, first, _, both, _, stops⟩ := (reviewAll_accounts Sample.away_tame 0).2
      Sample.away_steady () () () [Sample.entry 1 0] [Sample.blank 2]
    rw [reports, outcomes, outcomes] at stops
    have same : v = t := stops ⟨_, List.mem_singleton.mpr rfl,
      (critical_review Sample.away_tame 0 (Sample.entry 1 0) ()).trans (Sample.undecided_away 1 0)⟩
    rw [same] at both
    exact ⟨t, first, both⟩

end Gate

end ProofGate