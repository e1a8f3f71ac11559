import ProofGate.Gate
import ProofGate.Proofs.Binding
import ProofGate.Proofs.Bundle
import ProofGate.Proofs.Matching

/-!
# Passage through a gate

A run of a gate has three parts: what was offered is read, the pairing is asked, and the rest is
settled without the verifier. A run that returns is taken apart into the checks it passed; a run
depends on the query only through the members that its statement is matched with.
-/

namespace ProofGate

/-! ## Submissions -/

/-- What is handed to a gate in earnest: a bundle, or values of any kind for its words. -/
inductive Submission where
  | bundle (b : Bundle)
  | words (vs : List Value)

namespace Submission

def offer : Submission → Offer
  | bundle b => .bundle b
  | words vs => .words (.list vs)

/-- The bundle of 23 words that is meant. -/
def read : Submission → Except Failure Bundle
  | bundle b => .ok b
  | words vs => Bundle.ofWordList vs

theorem parts_offer (o : Submission) : o.offer.parts = o.read.map Bundle.parts := by
  cases o with
  | bundle b => rfl
  | words vs => rfl

theorem parts_of_read {o : Submission} {b : Bundle} (read : o.read = .ok b) :
    o.offer.parts = .ok b.parts := by
  rw [parts_offer, read, map_ok]

theorem parts_of_unread {o : Submission} {e : Failure} (unread : o.read = .error e) :
    o.offer.parts = .error e := by
  rw [parts_offer, unread, map_error]

/-- Values that are no bundle are malformed, whatever is wrong with them. -/
theorem kind_of_read {o : Submission} {e : Failure} (h : o.read = .error e) :
    e.kind = .malformedBundle := by
  cases o with
  | bundle b => cases h
  | words vs =>
    rw [read, Bundle.ofWordList, bind_eq_error] at h
    obtain hw | ⟨words, _, hb⟩ := h
    · exact Word.kind_of_ofValues hw
    · exact Bundle.kind_of_check hb

end Submission

/-! ## Runs of a gate -/

namespace Gate

variable {σ τ α : Type}

/-- A gate for one circuit and the layout that bundles carry. -/
def ofCircuit (pairing : Pairing σ) (circuit : Int) : Gate σ :=
  { pairing, circuit := .int circuit, layout := Layout.standard }

/-- What follows once the pairing holds. -/
def settle (g : Gate σ) (parts : Parts) (q : Query) : Run σ (List Nat) := do
  let inputs := parts.inputs.map fun (n : Nat) => Value.int n
  Run.ofExcept (Binding.checkCircuit g.circuit inputs)
  note "Circuit digest matches"
  let statement ← Run.ofExcept parts.statement
  let digest ← Run.ofExcept (Binding.checkDigest inputs statement)
  note ("Public inputs digest matches: " ++ Numeral.hexNat digest)
  let s ← Run.ofExcept (Statement.decode statement g.layout)
  Run.ofExcept (Matching.check s q)
  note ("Query matches public inputs (identifier " ++ Numeral.ofInt s.identifier ++ ", blocks "
    ++ Numeral.ofInt s.minBlock ++ "-" ++ Numeral.ofInt s.maxBlock ++ ")")
  let values ← Run.ofExcept (Release.values g.layout statement (.int s.identifier))
  note ("Released " ++ Numeral.ofNat values.length ++ " result value(s)")
  pure values

theorem pass_eq (g : Gate σ) (offer : Offer) (q : Query) :
    g.pass offer q = (Run.ofExcept offer.parts >>= fun parts =>
      g.pairing parts.proof parts.inputs >>= fun _ =>
        note "Groth16 proof verified" >>= fun _ => g.settle parts q) := rfl

/-- The warning that a rejection leaves; other failures leave none. -/
def warnings (e : Failure) : List Event :=
  if e.isA .rejection then [.logged ⟨.warning, .processor, rejection e⟩] else []

/-- A trace with the warning of its failure. -/
def closed (t : Trace σ α) : Trace σ α :=
  match t.outcome with
  | .ok _ => t
  | .error e => { t with events := t.events ++ warnings e }

theorem release_apply (g : Gate σ) (offer : Offer) (q : Query) (s : σ) :
    g.release offer q s = closed (g.pass offer q s) := by
  rw [release, Run.bind_apply_ok (a := (g.pass offer q s).outcome) (by rw [Run.attempt_apply])]
  generalize ht : g.pass offer q s = t
  obtain ⟨outcome, events, state⟩ := t
  cases outcome with
  | ok values => simp [closed, Run.after, ht]
  | error e =>
    cases he : e.isA .rejection with
    | true => simp [closed, warnings, he, Run.after, ht]
    | false => simp [closed, warnings, he, Run.after, ht]

@[simp] theorem closed_outcome (t : Trace σ α) : (closed t).outcome = t.outcome := by
  obtain ⟨outcome, events, state⟩ := t
  cases outcome <;> rfl

theorem closed_state (t : Trace σ α) : (closed t).state = t.state := by
  obtain ⟨outcome, events, state⟩ := t
  cases outcome <;> rfl

theorem release_outcome (g : Gate σ) (offer : Offer) (q : Query) (s : σ) :
    (g.release offer q s).outcome = (g.pass offer q s).outcome := by
  rw [release_apply, closed_outcome]

/-! ## Runs in three parts -/

section Parts

variable {g : Gate σ} {offer : Offer} {parts : Parts} {s : σ}

/-- Without parts nothing is asked. -/
theorem release_unread {e : Failure} (h : offer.parts = .error e) (q : Query) :
    g.release offer q s = ⟨.error e, warnings e, s⟩ := by
  rw [release_apply, pass_eq, h, Run.ofExcept_error_bind, Run.fail_apply]
  rfl

/-- A failure of the pairing is the failure of the run. -/
theorem release_refused {e : Failure} (h : offer.parts = .ok parts)
    (refuses : (g.pairing parts.proof parts.inputs s).outcome = .error e) (q : Query) :
    g.release offer q s =
      ⟨.error e, (g.pairing parts.proof parts.inputs s).events ++ warnings e,
        (g.pairing parts.proof parts.inputs s).state⟩ := by
  rw [release_apply, pass_eq, h, Run.ofExcept_ok_bind, Run.bind_apply_error refuses]
  rfl

/-- Once the pairing holds, the rest is settled. -/
theorem release_settled (h : offer.parts = .ok parts)
    (holds : (g.pairing parts.proof parts.inputs s).outcome = .ok ()) (q : Query) :
    g.release offer q s =
      closed (Run.after ((g.pairing parts.proof parts.inputs s).events
          ++ [.logged ⟨.debug, .processor, "Groth16 proof verified"⟩])
        (g.settle parts q (g.pairing parts.proof parts.inputs s).state)) := by
  rw [release_apply, pass_eq, h, Run.ofExcept_ok_bind, Run.bind_apply_ok holds, note,
    Run.log_bind_apply, Run.after_after]

end Parts

/-! ## What a run reads of a query -/

/-- An offer is read as a statement under a layout. -/
def Reads (layout : Layout) (offer : Offer) (st : Statement) : Prop :=
  ∃ parts p, offer.parts = .ok parts ∧ parts.statement = .ok p ∧ Statement.decode p layout = .ok st

/-- Queries that match alike what an offer is read as are not told apart. -/
theorem release_congr {g : Gate σ} {offer : Offer} {q q' : Query}
    (same : ∀ st, Reads g.layout offer st → Matching.check st q = Matching.check st q') :
    g.release offer q = g.release offer q' := by
  have passes : g.pass offer q = g.pass offer q' := by
    rw [pass_eq, pass_eq]
    refine Run.ofExcept_bind_congr fun parts read => bind_congr fun _ => bind_congr fun _ => ?_
    rw [settle, settle]
    refine bind_congr fun _ => bind_congr fun _ => Run.ofExcept_bind_congr fun p statement => ?_
    refine bind_congr fun _ => bind_congr fun _ => Run.ofExcept_bind_congr fun st decoded => ?_
    rw [same st ⟨parts, p, read, statement, decoded⟩]
  rw [release, release, passes]

/-! ## Runs that return -/

/-- The checks behind the pairing, all of them passed: what was offered holds the bytes `p`, they
say `s`, and `values` are released from them. -/
structure Settled (g : Gate σ) (parts : Parts) (q : Query) (p : Bytes) (s : Statement)
    (values : List ℕ) : Prop where
  circuit : Binding.checkCircuit g.circuit (parts.inputs.map fun n : ℕ => Value.int n) = .ok ()
  statement : parts.statement = .ok p
  digest : parts.inputs[2]? = some (Binding.statementDigest p)
  decoded : Statement.decode p g.layout = .ok s
  agrees : Matching.Agrees s q
  released : Release.values g.layout p (.int s.identifier) = .ok values

theorem settle_outcome_eq_ok {g : Gate σ} {parts : Parts} {q : Query} {s : σ}
    {values : List ℕ} :
    (g.settle parts q s).outcome = .ok values ↔ ∃ p st, g.Settled parts q p st values := by
  simp only [settle, note, Run.bind_outcome_eq_ok, Run.ofExcept_apply, Run.log_apply,
    Run.pure_apply, Binding.checkDigest_eq_ok]
  constructor
  · rintro ⟨_, circuit, _, _, p, statement, _, ⟨digest, _⟩, _, _, st, decoded, _, agrees, _, _,
      _, released, _, _, last⟩
    cases last
    exact ⟨p, st, circuit, statement, digest, decoded, Matching.check_eq_ok_iff.mp agrees, released⟩
  · rintro ⟨p, st, circuit, statement, digest, decoded, agrees, released⟩
    have matched := Matching.check_eq_ok_iff.mpr agrees
    exact ⟨(), circuit, (), trivial, p, statement, _, ⟨digest, rfl⟩, (), trivial, st, decoded, (),
      matched, (), trivial, values, released, (), trivial, rfl⟩

/-- **Inversion.** A gate releases values exactly if the pairing and all checks behind it pass. -/
theorem release_outcome_eq_ok {g : Gate σ} {offer : Offer} {q : Query} {s : σ}
    {values : List ℕ} :
    (g.release offer q s).outcome = .ok values ↔
      ∃ parts, offer.parts = .ok parts ∧
        (g.pairing parts.proof parts.inputs s).outcome = .ok () ∧
        ∃ p st, g.Settled parts q p st values := by
  simp only [release_outcome, pass_eq, note, Run.bind_outcome_eq_ok, Run.ofExcept_apply,
    Run.log_apply, settle_outcome_eq_ok]
  constructor
  · rintro ⟨parts, read, _, holds, _, _, settled⟩
    exact ⟨parts, read, holds, settled⟩
  · rintro ⟨parts, read, holds, settled⟩
    exact ⟨parts, read, (), holds, (), trivial, settled⟩

/-- Two gates that read statements alike give one answer for one statement. -/
theorem Settled.unique {g : Gate σ} {g' : Gate τ} (layout : g.layout = g'.layout)
    {parts parts' : Parts} {q q' : Query} {p : Bytes} {s s' : Statement} {values values' : List ℕ}
    (settled : g.Settled parts q p s values) (settled' : g'.Settled parts' q' p s' values') :
    values = values' ∧ q.Alike q' := by
  have same : s = s' := by
    have one := settled.decoded
    rw [layout, settled'.decoded] at one
    cases one
    rfl
  subst same
  constructor
  · have one := settled.released
    rw [layout, settled'.released] at one
    cases one
    rfl
  · exact (settled.agrees.iff_alike q').mp settled'.agrees

end Gate

end ProofGate
