import ProofGate.Command.Line
import ProofGate.Proofs.Run

/-!
# Two halves of a verification

Up to the question to the verifier a verification only reads: it takes its settings, loads the
bundle and puts the query together. What it shows and writes comes behind, and depends on the query
and on the report alone.
-/

namespace ProofGate

namespace Command

variable {σ : Type}

/-! ## Steps -/

theorem reading_bind {α β : Type} (f : Folder → Except Failure α) (k : α → Run (Desk σ) β)
    (desk : Desk σ) : (reading f >>= k) desk = (Run.ofExcept (f desk.folder) >>= k) desk := by
  cases read : f desk.folder with
  | error e =>
    rw [Run.bind_apply_error (r := reading f) read]
    rfl
  | ok a =>
    rw [Run.bind_apply_ok (r := reading f) read]
    rfl

@[simp] theorem onVerifier_apply {α : Type} (r : Run σ α) (desk : Desk σ) :
    onVerifier r desk =
      ⟨(r desk.verifier).outcome, (r desk.verifier).events,
        { desk with verifier := (r desk.verifier).state }⟩ := rfl

@[simp] theorem onFolder_apply {α : Type} (r : Run Folder α) (desk : Desk σ) :
    onFolder r desk =
      ⟨(r desk.folder).outcome, (r desk.folder).events,
        { desk with folder := (r desk.folder).state }⟩ := rfl

/-! ## Preparation -/

/-- The verifying contract that an order names itself. -/
def ownVerifier [Address.CaseRule] (verifier : Option Text) : Except Failure (Option Address) :=
  match given verifier with
  | some v => (Address.validate "verifier" (.text v)).map some
  | none => pure none

/-- All that is settled before the verifier is asked. -/
def prepare [Address.CaseRule] (s : Settings) (contract : Contract σ) (o : Order) (d : Folder) :
    Except Failure (Gate σ × Bundle × Query) := do
  s.checkChain o.chain
  let verifier ← ownVerifier o.verifier
  let (b, captured) ← load o.source d
  let q ← Loading.query d captured o.queryFile o.members
  let circuit ← s.circuitDigest o.circuit
  let gate ← gateFor s contract o.chain verifier circuit
  pure (gate, b, q)

/-- What is left to settle with a bundle at hand: the gate, and the query as it is put together. -/
def arrange [Address.CaseRule] (s : Settings) (contract : Contract σ) (o : Order)
    (asked : Except Failure Query) : Except Failure (Gate σ × Query) := do
  s.checkChain o.chain
  let verifier ← ownVerifier o.verifier
  let q ← asked
  let circuit ← s.circuitDigest o.circuit
  let gate ← gateFor s contract o.chain verifier circuit
  pure (gate, q)

theorem prepare_of_load [Address.CaseRule] {s : Settings} {contract : Contract σ} {o : Order}
    {d : Folder} {b : Bundle} {captured : List (Text × Value)}
    (loaded : load o.source d = .ok (b, captured)) :
    prepare s contract o d =
      (arrange s contract o (Loading.query d captured o.queryFile o.members)).map
        fun x => (x.1, b, x.2) := by
  rw [prepare, arrange, loaded]
  cases s.checkChain o.chain with
  | error e => rfl
  | ok _ =>
  cases ownVerifier o.verifier with
  | error e => rfl
  | ok verifier =>
  simp only [ok_bind]
  cases Loading.query d captured o.queryFile o.members with
  | error e => rfl
  | ok q =>
  cases s.circuitDigest o.circuit with
  | error e => rfl
  | ok circuit =>
  simp only [ok_bind]
  cases gateFor s contract o.chain verifier circuit with
  | error e => rfl
  | ok gate => rfl

/-- The name that a result is saved under. -/
def outputName (output : Option Text) (q : Query) : Text :=
  (given output).getD ("query_result_" ++ Gate.blocks q "_" ++ ".json")

/-- What is shown and written once there is a report. -/
def conclude (output : Option Text) (q : Query) (r : Report (List Nat)) :
    Run (Desk σ) (Option Nat) := do
  match ← stopOn r with
  | some status => pure (some status)
  | none =>
    let values := r.data.getD []
    say ("[green]✓ Verified " ++ Console.tagText (.int q.identifier.toNat) ++ " query[/green] for "
      ++ Console.shortAddress q.user ++ " on " ++ Console.shortAddress q.contract)
    sayAll (values.map fun (v : Nat) => "  " ++ Numeral.ofNat v)
    save (resultDocument q values) (outputName output q)
    pure none

/-- **Two halves.** -/
theorem verifyBundle_apply [Address.CaseRule] (s : Settings) (contract : Contract σ) (o : Order)
    (desk : Desk σ) :
    verifyBundle s contract o desk =
      (Run.ofExcept (prepare s contract o desk.folder) >>= fun p =>
        onVerifier (p.1.review (.bundle p.2.1) p.2.2) >>= conclude o.output p.2.2) desk := by
  show (Run.ofExcept (s.checkChain o.chain) >>= fun _ =>
    Run.ofExcept (ownVerifier o.verifier) >>= fun verifier =>
    reading (load o.source) >>= fun loaded =>
    reading (fun d => Loading.query d loaded.2 o.queryFile o.members) >>= fun q =>
    Run.ofExcept (s.circuitDigest o.circuit) >>= fun circuit =>
    Run.ofExcept (gateFor s contract o.chain verifier circuit) >>= fun gate =>
    onVerifier (gate.review (.bundle loaded.1) q) >>= conclude o.output q) desk = _
  rw [prepare]
  cases s.checkChain o.chain with
  | error e => rfl
  | ok _ =>
  cases ownVerifier o.verifier with
  | error e => rfl
  | ok verifier =>
  simp only [Run.ofExcept_ok_bind, ok_bind, reading_bind]
  cases load o.source desk.folder with
  | error e => rfl
  | ok loaded =>
  simp only [Run.ofExcept_ok_bind, ok_bind, reading_bind]
  cases Loading.query desk.folder loaded.2 o.queryFile o.members with
  | error e => rfl
  | ok q =>
  cases s.circuitDigest o.circuit with
  | error e => rfl
  | ok circuit =>
  simp only [Run.ofExcept_ok_bind, ok_bind]
  cases gateFor s contract o.chain verifier circuit with
  | error e => rfl
  | ok gate => rfl

/-! ## Failures told -/

/-- The failures that a command tells of and ends itself. -/
def Told (e : Failure) : Prop :=
  e.isA .permanent = true ∨ e.isA .value = true

instance (e : Failure) : Decidable (Told e) :=
  inferInstanceAs (Decidable (_ ∨ _))

theorem settle_apply (r : Run (Desk σ) (Option Nat)) (desk : Desk σ) :
    settle r desk =
      match (r desk).outcome with
      | .ok _ => r desk
      | .error e =>
        if Told e then
          ⟨.ok (some 1), (r desk).events ++ [.printed (.line (Console.complaint e))],
            (r desk).state⟩
        else
          ⟨.error e, (r desk).events ++ [.printed (.line ("[red]Error:[/red] " ++ e.text))],
            (r desk).state⟩ := by
  rw [settle, Run.bind_apply_ok (a := (r desk).outcome) (by rw [Run.attempt_apply])]
  generalize run : r desk = t
  obtain ⟨outcome, events, state⟩ := t
  cases outcome with
  | ok status => simp [Run.after, run]
  | error e =>
    by_cases told : Told e
    · have shown : (e.isA .permanent || e.isA .value) = true := by
        rw [Bool.or_eq_true]
        exact told
      simp only [Run.attempt_apply, run, shown, if_true, if_pos told]
      rfl
    · have raised : (e.isA .permanent || e.isA .value) = false := by
        rw [Bool.eq_false_iff, ne_eq, Bool.or_eq_true]
        exact told
      simp only [Run.attempt_apply, run, raised, if_neg told]
      rfl

end Command

end ProofGate
