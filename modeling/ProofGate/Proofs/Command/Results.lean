import ProofGate.Proofs.Command.Queries
import ProofGate.Proofs.Command.Verification
import ProofGate.Proofs.Gate.Reports

/-!
# Results

What a verification does behind the report: it saves the values that were released, for the query
that was verified, or it tells what went wrong and ends with a status of its own or with a failure.
-/

namespace ProofGate

namespace Command

variable {σ : Type}

/-! ## Lines -/

def lines (ts : List Text) : List Event :=
  ts.map fun t => .printed (.line t)

theorem sayAll_apply (ts : List Text) (desk : Desk σ) :
    sayAll ts desk = ⟨.ok (), lines ts, desk⟩ := by
  induction ts with
  | nil => rfl
  | cons t ts ih =>
    show (say t >>= fun _ => sayAll ts) desk = _
    rw [say, Run.print, Run.emit_bind_apply, ih]
    rfl

theorem sayAll_bind_apply {α : Type} (ts : List Text) (f : Unit → Run (Desk σ) α) (desk : Desk σ) :
    (sayAll ts >>= f) desk = Run.after (lines ts) (f () desk) := by
  rw [Run.bind_apply_ok (a := ()) (by rw [sayAll_apply]), sayAll_apply]

theorem stopOn_apply {α : Type} (r : Report α) (desk : Desk σ) :
    stopOn r desk = if r.success then ⟨.ok none, [], desk⟩
      else ⟨.ok (some 1), lines (complaints r), desk⟩ := by
  unfold stopOn
  by_cases success : r.success = true
  · rw [if_pos success, if_pos success]
    rfl
  · rw [if_neg success, if_neg success, sayAll_bind_apply]
    simp [Run.after]

theorem save_bind {α : Type} (document : Value) (file : Text) (f : Unit → Run (Desk σ) α) :
    save document file >>= f =
      onFolder (Saving.save document (.text file) (.text Saving.folderName) true) >>=
        fun _ => f () := by
  rw [save, bind_assoc]
  rfl

/-! ## Behind the report -/

/-- The run that saves a result. -/
def saving (output : Option Text) (q : Query) (values : List ℕ) : Run Folder Text :=
  Saving.save (resultDocument q values) (.text (outputName output q)) (.text Saving.folderName) true

theorem conclude_fail (output : Option Text) (q : Query) (f : Finding) (desk : Desk σ) :
    conclude output q (.fail f) desk =
      ⟨.ok (some 1), lines (complaints (.fail f : Report (List ℕ))), desk⟩ := by
  unfold conclude
  rw [Run.bind_apply_ok (a := some 1) (by rw [stopOn_apply]; rfl), stopOn_apply]
  simp [Run.after, Report.fail]

/-- Behind success there are lines, and the run that saves. -/
theorem conclude_ok (output : Option Text) (q : Query) (values : List ℕ) (desk : Desk σ) :
    ∃ shown, conclude output q (.ok values) desk =
      Run.after shown ((onFolder (saving output q values) >>= fun _ => pure none) desk) := by
  have success : stopOn (Report.ok values) desk = ⟨.ok none, [], desk⟩ := by
    rw [stopOn_apply]
    rfl
  unfold conclude
  rw [Run.bind_apply_ok (a := none) (by rw [success]), success]
  simp only [say, Run.print, Run.emit_bind_apply, sayAll_bind_apply, Run.after_after]
  refine ⟨_, congrArg _ ?_⟩
  rw [save_bind]
  rfl

/-! ## Settled runs -/

/-- The outcomes with which a process ends well. -/
def EndsWell (r : Except Failure (Option ℕ)) : Prop :=
  r = .ok none ∨ r = .ok (some 0)

theorem settle_of_ok {r : Run (Desk σ) (Option ℕ)} {desk : Desk σ} {status : Option ℕ}
    (run : (r desk).outcome = .ok status) : settle r desk = r desk := by
  rw [settle_apply, run]

/-- A failure is told or goes on, and neither is a good end. -/
theorem settle_of_error {r : Run (Desk σ) (Option ℕ)} {desk : Desk σ} {e : Failure}
    (run : (r desk).outcome = .error e) :
    (settle r desk).state = (r desk).state ∧ ¬ EndsWell (settle r desk).outcome := by
  rw [settle_apply, run]
  by_cases told : Told e
  · simp only [if_pos told]
    refine ⟨trivial, ?_⟩
    rintro (well | well) <;> cases well
  · simp only [if_neg told]
    refine ⟨trivial, ?_⟩
    rintro (well | well) <;> cases well

/-- **A run whose last step is to save** leaves the folder that saving leaves behind, and ends well if
saving does. -/
theorem settle_of_saver {r : Run (Desk σ) (Option ℕ)} {saver : Run Folder Text} {desk desk' : Desk σ}
    {shown : List Event}
    (last : r desk = Run.after shown ((onFolder saver >>= fun _ => pure none) desk')) :
    (settle r desk).state.folder = (saver desk'.folder).state ∧
      (∀ path, (saver desk'.folder).outcome = .ok path → (settle r desk).outcome = .ok none) ∧
      ∀ e, (saver desk'.folder).outcome = .error e → ¬ EndsWell (settle r desk).outcome := by
  cases saved : (saver desk'.folder).outcome with
  | ok path =>
    have onward : (onFolder saver desk').outcome = .ok path := saved
    rw [Run.bind_apply_ok onward] at last
    have out : (r desk).outcome = .ok none := by rw [last]; rfl
    rw [settle_of_ok out]
    refine ⟨?_, fun _ _ => out, nofun⟩
    rw [last]
    rfl
  | error e =>
    have onward : (onFolder saver desk').outcome = .error e := saved
    rw [Run.bind_apply_error onward] at last
    have out : (r desk).outcome = .error e := by rw [last]; rfl
    obtain ⟨state, bad⟩ := settle_of_error out
    refine ⟨?_, nofun, fun _ _ => bad⟩
    rw [state, last]
    rfl

/-- The gate reports success for the bundle that is loaded and the query that is put together, and
gives these values. -/
def Releases [Address.CaseRule] (s : Settings) (contract : Contract σ) (o : Order) (desk : Desk σ)
    (b : Bundle) (q : Query) (values : List ℕ) : Prop :=
  ∃ gate, prepare s contract o desk.folder = .ok (gate, b, q) ∧
    (gate.review (.bundle b) q desk.verifier).outcome = .ok (.ok values)

theorem report_cases {g : Gate σ} {b : Bundle} {q : Query} {st : σ} {r : Report (List ℕ)}
    (run : (g.review (.bundle b) q st).outcome = .ok r) :
    (∃ values, r = .ok values) ∨ ∃ f, r = .fail f := by
  rw [Gate.review_apply] at run
  cases out : (g.release (.bundle b) q st).outcome with
  | ok values =>
    rw [out] at run
    cases run
    exact Or.inl ⟨values, rfl⟩
  | error e =>
    rw [out] at run
    cases found : Gate.finding q e with
    | none =>
      simp only [Gate.reported, found] at run
      cases run
    | some f =>
      simp only [Gate.reported, found] at run
      cases run
      exact Or.inr ⟨f, rfl⟩

variable [Address.CaseRule] {s : Settings} {contract : Contract σ} {o : Order} {desk : Desk σ}

theorem verifyBundle_prepared {gate : Gate σ} {b : Bundle} {q : Query}
    (prepared : prepare s contract o desk.folder = .ok (gate, b, q)) {r : Report (List ℕ)}
    (reviewed : (gate.review (.bundle b) q desk.verifier).outcome = .ok r) :
    ∃ events desk', desk'.folder = desk.folder ∧
      verifyBundle s contract o desk = Run.after events (conclude o.output q r desk') := by
  refine ⟨(gate.review (.bundle b) q desk.verifier).events,
    { desk with verifier := (gate.review (.bundle b) q desk.verifier).state }, rfl, ?_⟩
  rw [verifyBundle_apply, prepared, Run.ofExcept_ok_bind,
    Run.bind_apply_ok (a := r) (by rw [onVerifier_apply, reviewed])]
  rfl

/-- **Released values** are saved: the folder is the one that saving leaves behind, and the run ends
well if saving does. -/
theorem settle_of_releases {b : Bundle} {q : Query} {values : List ℕ}
    (releases : Releases s contract o desk b q values) :
    (settle (verifyBundle s contract o) desk).state.folder =
        (saving o.output q values desk.folder).state ∧
      (∀ path, (saving o.output q values desk.folder).outcome = .ok path →
        (settle (verifyBundle s contract o) desk).outcome = .ok none) ∧
      ∀ e, (saving o.output q values desk.folder).outcome = .error e →
        ¬ EndsWell (settle (verifyBundle s contract o) desk).outcome := by
  obtain ⟨gate, prepared, reviewed⟩ := releases
  obtain ⟨events, desk', same, run⟩ := verifyBundle_prepared prepared reviewed
  obtain ⟨shown, concluded⟩ := conclude_ok o.output q values desk'
  rw [concluded, Run.after_after] at run
  rw [← same]
  exact settle_of_saver run

/-- What cannot be prepared is told, and nothing is asked or written. -/
theorem settle_unprepared {e : Failure} (failed : prepare s contract o desk.folder = .error e) :
    (settle (verifyBundle s contract o) desk).state = desk ∧
      ¬ EndsWell (settle (verifyBundle s contract o) desk).outcome ∧
      (Told e → (settle (verifyBundle s contract o) desk).outcome = .ok (some 1)) := by
  have run : verifyBundle s contract o desk = ⟨.error e, [], desk⟩ := by
    rw [verifyBundle_apply, failed, Run.ofExcept_error_bind, Run.fail_apply]
  obtain ⟨state, bad⟩ := settle_of_error (r := verifyBundle s contract o) (by rw [run])
  refine ⟨by rw [state, run], bad, fun told => ?_⟩
  rw [settle_apply, run]
  simp only [if_pos told]

/-- **Without released values** nothing is saved, and the run does not end well. -/
theorem settle_of_not_releases (none : ∀ b q values, ¬ Releases s contract o desk b q values) :
    (settle (verifyBundle s contract o) desk).state.folder = desk.folder ∧
      ¬ EndsWell (settle (verifyBundle s contract o) desk).outcome := by
  have failed {e : Failure} (out : (verifyBundle s contract o desk).outcome = .error e)
      (kept : (verifyBundle s contract o desk).state.folder = desk.folder) :
      (settle (verifyBundle s contract o) desk).state.folder = desk.folder ∧
        ¬ EndsWell (settle (verifyBundle s contract o) desk).outcome := by
    obtain ⟨state, bad⟩ := settle_of_error out
    exact ⟨by rw [state, kept], bad⟩
  cases prepared : prepare s contract o desk.folder with
  | error e =>
    obtain ⟨state, bad, _⟩ := settle_unprepared prepared
    exact ⟨by rw [state], bad⟩
  | ok p =>
    obtain ⟨gate, b, q⟩ := p
    cases reviewed : (gate.review (.bundle b) q desk.verifier).outcome with
    | error e =>
      have asked : (onVerifier (gate.review (.bundle b) q) desk).outcome = .error e := by
        rw [onVerifier_apply, reviewed]
      have run := verifyBundle_apply s contract o desk
      rw [prepared, Run.ofExcept_ok_bind, Run.bind_apply_error asked] at run
      exact failed (by rw [run]) (by rw [run]; rfl)
    | ok r =>
      rcases report_cases reviewed with ⟨values, rfl⟩ | ⟨f, rfl⟩
      · exact absurd ⟨gate, prepared, reviewed⟩ (none b q values)
      · obtain ⟨events, desk', same, run⟩ := verifyBundle_prepared prepared reviewed
        rw [conclude_fail] at run
        have out : (verifyBundle s contract o desk).outcome = .ok (some 1) := by rw [run]; rfl
        rw [settle_of_ok out, out]
        refine ⟨?_, ?_⟩
        · rw [run, ← same]
          rfl
        · rintro (well | well) <;> cases well

/-! ## Preparations that succeed -/

/-- What an order has to have in it for the verifier to be asked. -/
structure Prepared (s : Settings) (contract : Contract σ) (o : Order) (d : Folder)
    (captured news : List (Text × Value)) (gate : Gate σ) (b : Bundle) (q : Query) : Prop where
  chain : s.checkChain o.chain = .ok ()
  bundle : load o.source d = .ok (b, captured)
  file : Loading.fileMembers d o.queryFile = .ok news
  query : Loading.Asked (Loading.origin o.members news captured) q
  built : ∃ verifier circuit, ownVerifier o.verifier = .ok verifier ∧
    s.circuitDigest o.circuit = .ok circuit ∧ gateFor s contract o.chain verifier circuit = .ok gate

theorem prepare_eq_ok_iff {d : Folder} {gate : Gate σ} {b : Bundle} {q : Query} :
    prepare s contract o d = .ok (gate, b, q) ↔
      ∃ captured news, Prepared s contract o d captured news gate b q := by
  constructor
  · intro h
    obtain ⟨_, chain, h⟩ := bind_eq_ok.mp h
    obtain ⟨verifier, own, h⟩ := bind_eq_ok.mp h
    obtain ⟨⟨_, captured⟩, bundle, h⟩ := bind_eq_ok.mp h
    obtain ⟨_, query, h⟩ := bind_eq_ok.mp h
    obtain ⟨circuit, digest, h⟩ := bind_eq_ok.mp h
    obtain ⟨_, built, h⟩ := bind_eq_ok.mp h
    cases h
    obtain ⟨news, file, asked⟩ := Loading.query_eq_ok_iff.mp query
    exact ⟨captured, news, chain, bundle, file, asked, verifier, circuit, own, digest, built⟩
  · rintro ⟨captured, news, chain, bundle, file, asked, verifier, circuit, own, digest, built⟩
    have query := Loading.query_eq_ok_iff.mpr ⟨news, file, asked⟩
    simp only [prepare, chain, own, bundle, query, digest, built, ok_bind]
    rfl

/-! ## The contract that is asked -/

/-- Where the verifying contract is: at the address that an order names, or else at the one that is
set for the chain. -/
def site (s : Settings) (chain : Value) (verifier : Option Address) : Except Failure Value :=
  match verifier with
  | some a => .ok (.text a.checksum)
  | none => s.verifier chain

omit [Address.CaseRule] in
theorem gateFor_eq_ok_iff {chain : Value} {verifier : Option Address} {circuit : Int}
    {gate : Gate σ} :
    gateFor s contract chain verifier circuit = .ok gate ↔
      ∃ address, site s chain verifier = .ok address ∧ (∃ url, s.endpoint chain = .ok url) ∧
        gate = Gate.ofCircuit (Pairing.ofContract chain address Backoff.forCalls contract)
          circuit := by
  have steps : gateFor s contract chain verifier circuit = (site s chain verifier >>= fun address =>
      s.endpoint chain >>= fun _ => .ok (Gate.ofCircuit
        (Pairing.ofContract chain address Backoff.forCalls contract) circuit)) := by
    cases verifier <;> rfl
  rw [steps, bind_eq_ok]
  refine exists_congr fun address => and_congr_right fun _ => ?_
  rw [bind_eq_ok]
  constructor
  · rintro ⟨url, set, built⟩
    exact ⟨⟨url, set⟩, (Except.ok.inj built).symm⟩
  · rintro ⟨⟨url, set⟩, rfl⟩
    exact ⟨url, set, rfl⟩

omit [Address.CaseRule] in
/-- Success is reported only if the pairing holds. -/
theorem holds_of_review {pairing : Pairing σ} {circuit : Int} {b : Bundle} {q : Query} {st : σ}
    {values : List ℕ}
    (reviewed : ((Gate.ofCircuit pairing circuit).review (.bundle b) q st).outcome =
      .ok (.ok values)) : (pairing b.proof b.inputs st).outcome = .ok () := by
  obtain ⟨_, read, holds, _⟩ := (Gate.release_eq_ok_iff_guards (o := .bundle b)).mp
    (Gate.review_eq_ok_iff.mp reviewed)
  cases read
  exact holds

/-! ## Addresses that are none -/

/-- An order with an address in a form in which none is accepted: that of the verifying contract, or
one that a member of the query is taken from. -/
inductive Misspelled (o : Order) (d : Folder) : Prop
  | verifier {t : Text} (own : given o.verifier = some t)
      (unread : ∀ n, ¬ Address.Accepted n (.text t)) : Misspelled o d
  | member {b : Bundle} {captured news : List (Text × Value)} {name : Text} {v : Value}
      (bundle : load o.source d = .ok (b, captured))
      (file : Loading.fileMembers d o.queryFile = .ok news) (inside : name ∈ Loading.addressNames)
      (held : Loading.origin o.members news captured name = some v)
      (unread : ∀ n t, v = .text t → ¬ Address.Accepted n v) : Misspelled o d

/-- An address that is none is told before the verifier is asked. -/
theorem prepare_misspelled (s : Settings) (contract : Contract σ) {d : Folder}
    (misspelled : Misspelled o d) :
    ∃ e, prepare s contract o d = .error e ∧ (s.checkChain o.chain = .ok () → e.kind = .value) := by
  rw [prepare]
  cases s.checkChain o.chain with
  | error e =>
    refine ⟨e, rfl, fun holds => ?_⟩
    cases holds
  | ok _ =>
  rw [ok_bind]
  cases own : ownVerifier o.verifier with
  | error e =>
    refine ⟨e, rfl, fun _ => ?_⟩
    unfold ownVerifier at own
    split at own
    · exact Address.tells_validate _ _ e (map_eq_error.mp own)
    · cases own
  | ok verifier =>
  rw [ok_bind]
  cases misspelled with
  | @verifier t set unread =>
    rw [ownVerifier, set] at own
    obtain ⟨a, valid, _⟩ := map_eq_ok.mp own
    exact absurd (Address.validate_eq_ok_iff.mp valid).1 (unread _)
  | @member _ _ _ name v bundle file inside held unread =>
    have unfit (a : Address) : Address.validate name v ≠ .ok a := by
      intro valid
      obtain ⟨accepted, t, text⟩ := Address.validate_eq_ok_iff.mp valid
      exact unread _ t text accepted
    obtain ⟨e, failed, kind⟩ := Loading.query_of_unfit file inside held unfit
    rw [bundle, ok_bind]
    dsimp only
    rw [failed]
    exact ⟨e, rfl, fun _ => kind⟩

end Command

end ProofGate
