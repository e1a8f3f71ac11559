import ProofGate.Proofs.Gate.Passage
import ProofGate.Proofs.Release

/-!
# The order of the gates

For the layout that bundles carry, everything behind the pairing is one row of guards: circuit,
digest, the members of the query, the tag. A run that does not release fails with the first of
them that rejects, or earlier with the shape of the bundle or with the pairing's own failure; it
has logged what it passed, and nothing behind that point has run.
-/

namespace ProofGate

/-! ## The guards behind the pairing -/

/-- The same pairing, with a record of what it was asked. -/
def Pairing.recorded {σ : Type} (pairing : Pairing σ) : Pairing (σ × List (List ℕ × List ℕ)) :=
  fun proof inputs s =>
    let t := pairing proof inputs s.1
    ⟨t.outcome, t.events, (t.state, s.2 ++ [(proof, inputs)])⟩

namespace Gate

variable {σ α : Type}

/-- The identifier, with what is noted once all members match. -/
def matched (s : Statement) (q : Query) : Guard :=
  { Matching.identifiers s q with
    notes := ["Query matches public inputs (identifier " ++ Numeral.ofInt s.identifier
      ++ ", blocks " ++ Numeral.ofInt s.minBlock ++ "-" ++ Numeral.ofInt s.maxBlock ++ ")"] }

/-- The guards behind the pairing, for a bundle and the statement it holds. -/
def guards (circuit : Int) (b : Bundle) (q : Query) : List Guard :=
  let p := b.statement
  let s := Statement.ofBuffer p
  [Binding.circuits circuit (b.inputs.getD 0 0), Binding.digests (b.inputs.getD 2 0) p]
    ++ Matching.members s q ++ [matched s q, Release.tags s.identifier p]

/-- What a bundle releases once it has passed. -/
def released (b : Bundle) : List ℕ :=
  Release.ofBuffer (Statement.ofBuffer b.statement).identifier b.statement

/-- Matching, and the note behind it, are the guards of the members. -/
theorem match_and_note (s : Statement) (q : Query) (rest : Run σ α) :
    (Run.ofExcept (Matching.check s q) >>= fun _ =>
      note ("Query matches public inputs (identifier " ++ Numeral.ofInt s.identifier ++ ", blocks "
        ++ Numeral.ofInt s.minBlock ++ "-" ++ Numeral.ofInt s.maxBlock ++ ")") >>= fun _ => rest) =
      (Guard.course (Matching.members s q) >>= fun _ =>
        Guard.course [matched s q] >>= fun _ => rest) := by
  have quiet : ∀ g ∈ Matching.members s q, g.notes = [] := by
    simp [Matching.members, Matching.one, Matching.rates]
  have same : Guard.verdict [Matching.identifiers s q] = Guard.verdict [matched s q] := by
    rw [Guard.verdict_single, Guard.verdict_single]
    rfl
  rw [Matching.check_eq_verdict, Guard.verdict_append, Run.ofExcept_bind, bind_assoc, same,
    Guard.course_quiet quiet, Guard.course_single (g := matched s q) rfl]
  simp only [bind_assoc]
  rfl

/-- **One row.** Behind the pairing nothing but the guards is left. -/
theorem settle_ofCircuit (pairing : Pairing σ) (circuit : Int) (b : Bundle) (q : Query) :
    (ofCircuit pairing circuit).settle b.parts q =
      (Guard.course (guards circuit b q) >>= fun _ => pure (released b)) := by
  have input {i : ℕ} (h : i < 3) : b.inputs[i]? = some (b.inputs.getD i 0) := by
    have inside : i < b.inputs.length := by rw [b.length_inputs]; exact h
    rw [List.getD_eq_getElem?_getD, List.getElem?_eq_getElem inside, Option.getD_some]
  have row : guards circuit b q =
      [Binding.circuits circuit (b.inputs.getD 0 0)] ++
        ([Binding.digests (b.inputs.getD 2 0) b.statement] ++
          (Matching.members (Statement.ofBuffer b.statement) q ++
            ([matched (Statement.ofBuffer b.statement) q] ++
              [Release.tags (Statement.ofBuffer b.statement).identifier b.statement]))) := rfl
  have size := b.length_statement
  simp only [row, Guard.course_append, bind_assoc]
  rw [settle]
  refine (Guard.check_and_note (Binding.checkCircuit_eq (input (by decide)) circuit) rfl _).trans
    (bind_congr fun _ => ?_)
  show (Run.ofExcept (.ok b.statement) >>= _) = _
  rw [Run.ofExcept_ok_bind]
  refine (Guard.check_and_note (Binding.checkDigest_eq (input (by decide)) b.statement) rfl _).trans
    (bind_congr fun _ => ?_)
  show (Run.ofExcept (Statement.decode b.statement Layout.standard) >>= _) = _
  rw [Statement.decode_standard size, Run.ofExcept_ok_bind, match_and_note]
  refine bind_congr fun _ => bind_congr fun _ => ?_
  exact Guard.check_and_note (Release.values_eq size _) rfl _

/-- A run behind a pairing that holds, as a whole. -/
theorem release_guarded (pairing : Pairing σ) {o : Submission} {b : Bundle} {s : σ}
    (read : o.read = .ok b) (holds : (pairing b.proof b.inputs s).outcome = .ok ())
    (circuit : Int) (q : Query) :
    (ofCircuit pairing circuit).release o.offer q s =
      closed ⟨(Guard.verdict (guards circuit b q)).map fun _ => released b,
        (pairing b.proof b.inputs s).events ++
          Guard.line "Groth16 proof verified" :: (Guard.noted (guards circuit b q)).map Guard.line,
        (pairing b.proof b.inputs s).state⟩ := by
  rw [release_settled (g := ofCircuit pairing circuit) (Submission.parts_of_read read) holds,
    settle_ofCircuit, Guard.course_pure]
  simp only [Run.after, List.append_assoc, List.singleton_append]
  rfl

/-! ## The first that rejects -/

/-- The kinds of failure behind the pairing, in the order of their guards. -/
def order : List Kind :=
  [.circuitMismatch, .digestMismatch, .mismatch .minBlock, .mismatch .maxBlock, .mismatch .contract,
    .mismatch .user, .mismatch .blockHash, .mismatch .rewardsRate, .mismatch .identifier,
    .unsupportedTag]

theorem kinds_guards (circuit : Int) (b : Bundle) (q : Query) :
    (guards circuit b q).map (fun g => g.failure.kind) = order := rfl

/-- Every guard rejects with a rejection. -/
theorem isA_of_mem_guards {circuit : Int} {b : Bundle} {q : Query} {g : Guard}
    (h : g ∈ guards circuit b q) : g.failure.isA .rejection = true := by
  have listed : g.failure.kind ∈ order := by
    rw [← kinds_guards circuit b q]
    exact List.mem_map.mpr ⟨g, h, rfl⟩
  have all : ∀ k ∈ order, k.isA .rejection = true := by decide
  exact all _ listed

/-- Guards that are not asked for a rate do not reject one. -/
theorem rate_of_rejected {circuit : Int} {b : Bundle} {q : Query} {g : Guard}
    (h : g ∈ guards circuit b q) (rejects : g.passes = false)
    (kind : g.failure.kind = .mismatch .rewardsRate) :
    (Statement.ofBuffer b.statement).identifier = 88 := by
  simp only [guards, Matching.members, List.cons_append, List.nil_append, List.mem_cons,
    List.not_mem_nil, or_false] at h
  rcases h with rfl | rfl | rfl | rfl | rfl | rfl | rfl | rfl | rfl | rfl
  -- only one of the ten guards rejects a rate
  all_goals first
    | exact Matching.aggregate_of_rejected rejects
    | cases kind

/-- All but the last of the guards. -/
def front (circuit : Int) (b : Bundle) (q : Query) : List Guard :=
  let s := Statement.ofBuffer b.statement
  [Binding.circuits circuit (b.inputs.getD 0 0),
    Binding.digests (b.inputs.getD 2 0) b.statement] ++ Matching.members s q ++ [matched s q]

theorem guards_eq (circuit : Int) (b : Bundle) (q : Query) :
    guards circuit b q = front circuit b q ++
      [Release.tags (Statement.ofBuffer b.statement).identifier b.statement] := rfl

theorem front_eq (circuit : Int) (b : Bundle) (q : Query) :
    front circuit b q = Binding.circuits circuit (b.inputs.getD 0 0) ::
      Binding.digests (b.inputs.getD 2 0) b.statement ::
        (Matching.members (Statement.ofBuffer b.statement) q ++
          [matched (Statement.ofBuffer b.statement) q]) := rfl

/-- The note changes nothing about what is decided. -/
theorem verdict_matched (s : Statement) (q : Query) :
    Guard.verdict (Matching.members s q ++ [matched s q]) = Matching.check s q := by
  rw [Matching.check_eq_verdict, Guard.verdict_append, Guard.verdict_append, Guard.verdict_single,
    Guard.verdict_single]
  rfl

theorem verdict_front {circuit : Int} {b : Bundle} {q : Query} :
    Guard.verdict (front circuit b q) = .ok () ↔
      ((b.inputs.getD 0 0 : ℕ) : Int) = circuit ∧
      b.inputs.getD 2 0 = Binding.statementDigest b.statement ∧
      Matching.Agrees (Statement.ofBuffer b.statement) q := by
  rw [front_eq, Guard.verdict_eq_ok_iff, List.forall_mem_cons, List.forall_mem_cons,
    ← Guard.verdict_eq_ok_iff, verdict_matched, Matching.check_eq_ok_iff]
  simp only [Binding.circuits, Binding.digests, beq_iff_eq]

/-- Behind the right circuit and digest the members decide, and then the tag. -/
theorem verdict_bound {circuit : Int} {b : Bundle} (q : Query)
    (named : ((b.inputs.getD 0 0 : ℕ) : Int) = circuit)
    (claimed : b.inputs.getD 2 0 = Binding.statementDigest b.statement) :
    Guard.verdict (guards circuit b q) =
      (Matching.check (Statement.ofBuffer b.statement) q >>= fun _ => Guard.verdict
        [Release.tags (Statement.ofBuffer b.statement).identifier b.statement]) := by
  have circuits : (Binding.circuits circuit (b.inputs.getD 0 0)).passes = true :=
    beq_iff_eq.mpr named
  have digests : (Binding.digests (b.inputs.getD 2 0) b.statement).passes = true :=
    beq_iff_eq.mpr claimed
  rw [guards_eq, Guard.verdict_append, front_eq, Guard.verdict_pass circuits,
    Guard.verdict_pass digests, verdict_matched]

/-- The last guard is heard if all else agrees. -/
theorem verdict_tag (circuit : Int) (b : Bundle) (q : Query) :
    (∃ e, Guard.verdict (guards circuit b q) = .error e ∧ e.kind = .unsupportedTag) ↔
      ((b.inputs.getD 0 0 : ℕ) : Int) = circuit ∧
      b.inputs.getD 2 0 = Binding.statementDigest b.statement ∧
      Matching.Agrees (Statement.ofBuffer b.statement) q ∧
      (Statement.ofBuffer b.statement).identifier ≠ 67 ∧
      (Statement.ofBuffer b.statement).identifier ≠ 88 := by
  have other {e : Failure} (kind : e.kind = .unsupportedTag) :
      ∀ g ∈ front circuit b q, g.failure ≠ e := by
    have kinds : ∀ k ∈ order.take 9, k ≠ Kind.unsupportedTag := by decide
    rintro g hg rfl
    have listed : g.failure.kind ∈ (front circuit b q).map fun g => g.failure.kind :=
      List.mem_map.mpr ⟨g, hg, rfl⟩
    exact kinds _ listed kind
  constructor
  · rintro ⟨e, fails, kind⟩
    rw [guards_eq, Guard.verdict_last (other kind), verdict_front] at fails
    obtain ⟨⟨circuits, digests, agrees⟩, rejects, _⟩ := fails
    exact ⟨circuits, digests, agrees, Release.tags_reject.mp rejects⟩
  · rintro ⟨circuits, digests, agrees, nft, erc20⟩
    refine ⟨.unsupportedTag (.int (Statement.ofBuffer b.statement).identifier), ?_, rfl⟩
    rw [guards_eq, Guard.verdict_last (other rfl), verdict_front]
    exact ⟨⟨circuits, digests, agrees⟩, Release.tags_reject.mpr ⟨nft, erc20⟩, rfl⟩

/-! ## The run as a whole -/

/-- A run that leaves the trace `t`: the bundle, the pairing and the guards are taken in this
order, and the first of them that fails ends it. -/
structure Ordered (pairing : Pairing σ) (circuit : Int) (o : Submission) (q : Query) (s : σ)
    (t : Trace (σ × List (List ℕ × List ℕ)) (List ℕ)) : Prop where
  /-- What is no bundle is malformed, and the pairing is not asked. -/
  unread {e : Failure} : o.read = .error e →
    e.kind = .malformedBundle ∧ t = ⟨.error e, warnings e, (s, [])⟩
  /-- For a bundle the pairing is asked once. -/
  asked {b : Bundle} : o.read = .ok b →
    b.proof.length = 8 ∧ b.inputs.length = 3 ∧
      t.state = ((pairing b.proof b.inputs s).state, [(b.proof, b.inputs)])
  /-- The pairing's own failure is left as it is. -/
  refused {b : Bundle} {e : Failure} : o.read = .ok b →
    (pairing b.proof b.inputs s).outcome = .error e →
    t.outcome = .error e ∧ t.events = (pairing b.proof b.inputs s).events ++ warnings e
  /-- What the guards let pass is released. -/
  passed {b : Bundle} : o.read = .ok b → (pairing b.proof b.inputs s).outcome = .ok () →
    (∀ g ∈ guards circuit b q, g.passes = true) →
    t.outcome = .ok (released b) ∧
      t.events = (pairing b.proof b.inputs s).events ++
        Guard.line "Groth16 proof verified" ::
          ((guards circuit b q).flatMap fun g => g.notes).map Guard.line
  /-- The first guard that rejects gives the failure and the one warning. -/
  rejected {b : Bundle} {before behind : List Guard} {g : Guard} : o.read = .ok b →
    (pairing b.proof b.inputs s).outcome = .ok () →
    guards circuit b q = before ++ g :: behind → (∀ h ∈ before, h.passes = true) →
    g.passes = false →
    t.outcome = .error g.failure ∧ g.failure.isA .rejection = true ∧
      t.events = (pairing b.proof b.inputs s).events ++
        Guard.line "Groth16 proof verified" :: (before.flatMap fun h => h.notes).map Guard.line ++
        [.logged ⟨.warning, .processor, rejection g.failure⟩]
  /-- The kinds of the guards' failures. -/
  kinds {b : Bundle} : o.read = .ok b →
    (guards circuit b q).map (fun g => g.failure.kind) = order
  /-- No rate is rejected but that of an aggregate. -/
  rate {b : Bundle} {e : Failure} : o.read = .ok b →
    (pairing b.proof b.inputs s).outcome = .ok () →
    t.outcome = .error e → e.kind = .mismatch .rewardsRate →
    (Statement.ofBuffer b.statement).identifier = 88
  /-- The tag is unsupported if all else agrees on one that is neither of the two. -/
  tag {b : Bundle} : o.read = .ok b → (pairing b.proof b.inputs s).outcome = .ok () →
    ((∃ e, t.outcome = .error e ∧ e.kind = .unsupportedTag) ↔
      ((b.inputs.getD 0 0 : ℕ) : Int) = circuit ∧
      b.inputs.getD 2 0 = Binding.statementDigest b.statement ∧
      Matching.Agrees (Statement.ofBuffer b.statement) q ∧
      (Statement.ofBuffer b.statement).identifier ≠ 67 ∧
      (Statement.ofBuffer b.statement).identifier ≠ 88)

/-- **Order of the gates.** Every run goes in this order, whatever the bundle, the query, the
circuit and the pairing are, and however many of the checks would fail. -/
theorem release_ordered (pairing : Pairing σ) (circuit : Int) (o : Submission) (q : Query) (s : σ) :
    Ordered pairing circuit o q s
      ((ofCircuit pairing.recorded circuit).release o.offer q (s, [])) := by
  have run {b : Bundle} (read : o.read = .ok b)
      (holds : (pairing b.proof b.inputs s).outcome = .ok ()) :=
    release_guarded pairing.recorded (s := (s, [])) read holds circuit q
  refine ⟨?unread, ?asked, ?refused, ?passed, ?rejected, ?kinds, ?rate, ?tag⟩
  case unread =>
    intro e read
    exact ⟨Submission.kind_of_read read, release_unread (Submission.parts_of_unread read) q⟩
  case asked =>
    intro b read
    refine ⟨b.length_proof, b.length_inputs, ?_⟩
    have parts := Submission.parts_of_read read
    cases h : (pairing b.proof b.inputs s).outcome with
    | error e =>
      rw [release_refused (g := ofCircuit pairing.recorded circuit) (s := (s, [])) parts h]
      rfl
    | ok _ =>
      rw [run read h, closed_state]
      rfl
  case refused =>
    intro b e read refuses
    have parts := Submission.parts_of_read read
    rw [release_refused (g := ofCircuit pairing.recorded circuit) (s := (s, [])) parts refuses]
    exact ⟨rfl, rfl⟩
  case passed =>
    intro b read holds passed
    rw [run read holds, Guard.verdict_eq_ok_iff.mpr passed, Guard.noted_all passed]
    exact ⟨rfl, rfl⟩
  case rejected =>
    intro b before behind g read holds row passed rejects
    have own : g.failure.isA .rejection = true := by
      have inside : g ∈ guards circuit b q := by rw [row]; simp
      exact isA_of_mem_guards inside
    obtain ⟨decides, notes⟩ := Guard.verdict_first passed rejects behind
    rw [run read holds, row, decides, notes]
    refine ⟨rfl, own, ?_⟩
    simp only [map_error, closed, warnings, own, if_true]
    rfl
  case kinds =>
    intro b _
    exact kinds_guards circuit b q
  case rate =>
    intro b e read holds fails kind
    rw [run read holds, closed_outcome, map_eq_error, Guard.verdict_eq_error] at fails
    obtain ⟨before, g, behind, row, _, rejects, rfl⟩ := fails
    have inside : g ∈ guards circuit b q := by rw [row]; simp
    exact rate_of_rejected inside rejects kind
  case tag =>
    intro b read holds
    simp only [run read holds, closed_outcome, map_eq_error]
    exact verdict_tag circuit b q

end Gate

end ProofGate
