import ProofGate.Proofs.Bundle.Forms
import ProofGate.Proofs.Command.Documents
import ProofGate.Proofs.Command.Lines
import ProofGate.Proofs.Command.Results
import ProofGate.Proofs.Gate.Completeness
import ProofGate.Proofs.Handles.Opening
import ProofGate.Proofs.Saving

/-!
# Results that are saved

A command line writes a result only for the query that it verified. Each member of that query is
taken from its switch, or else from the file of the query, or else from the captured call. Every
other line leaves the files as they were, and its process does not end with status zero.
-/

namespace ProofGate

namespace CommandLine

open Options

variable {σ : Type}

/-- What the switch of a member was given. -/
def flag (sheet : Sheet) (name : Text) : Option Value :=
  (memberSwitches.find? fun m => m.2 == name).bind fun m => sheet.find? m.1.name

/-- Of switches for different members each is given for its own. -/
theorem latest_filterMap {L : List (Switch × Text)} (distinct : (L.map Prod.snd).Nodup)
    (sheet : Sheet) (name : Text) :
    Value.latest (L.filterMap fun m => (sheet.find? m.1.name).map fun v => (m.2, v)) name =
      (L.find? fun m => m.2 == name).bind fun m => sheet.find? m.1.name := by
  induction L with
  | nil => rfl
  | cons m L ih =>
    rw [List.map_cons, List.nodup_cons] at distinct
    have rest := ih distinct.2
    by_cases same : m.2 = name
    · have absent : (L.find? fun m => m.2 == name) = none := by
        rw [List.find?_eq_none]
        intro other inside found
        rw [beq_iff_eq] at found
        exact distinct.1 (same.trans found.symm ▸ List.mem_map_of_mem inside)
      rw [absent] at rest
      rw [List.find?_cons_of_pos (by simp [same]), Option.bind_some, List.filterMap_cons]
      cases sheet.find? m.1.name with
      | none => exact rest
      | some v =>
        rw [Option.map_some]
        dsimp only
        rw [Value.latest_cons, rest, if_pos same.symm]
        rfl
    · rw [List.find?_cons_of_neg (by simp [same]), ← rest, List.filterMap_cons]
      cases sheet.find? m.1.name with
      | none => rfl
      | some v =>
        rw [Option.map_some]
        dsimp only
        rw [Value.latest_cons, if_neg fun found => same found.symm, Option.or_none]

theorem latest_members (sheet : Sheet) (name : Text) :
    Value.latest (members sheet) name = flag sheet name :=
  latest_filterMap (by decide) sheet name

/-- The level of the log that a line sets. -/
def levelled (j : Journal) (before : Sheet) : Except Failure Journal :=
  match Command.given (before.text? "--log-level") with
  | some name => j.setLevel (.text name)
  | none => .ok j

/-- A line that is verified: its level can be set, a bundle is loaded from the file it names, a
query is put together of members that are given by their switches, or else held by the file of the
query, or else captured with the bundle, there is a gate to ask, and the gate reports success. -/
structure Verified [Address.CaseRule] (s : Settings) (j : Journal) (contract : Contract σ)
    (before sheet : Sheet) (desk : Desk σ) (captured news : List (Text × Value)) (gate : Gate σ)
    (b : Bundle) (q : Query) (values : List ℕ) : Prop where
  level : ∃ j', levelled j before = .ok j'
  chain : s.checkChain (order sheet).chain = .ok ()
  bundle : Command.load (source sheet) desk.folder = .ok (b, captured)
  file : Loading.fileMembers desk.folder (sheet.text? "--query") = .ok news
  query : Loading.Asked (fun name =>
    (flag sheet name).or ((Value.latest news name).or (Value.find? captured name))) q
  built : ∃ verifier circuit, Command.ownVerifier (sheet.text? "--verifier") = .ok verifier ∧
    s.circuitDigest (sheet.value "--circuit-digest") = .ok circuit ∧
    Command.gateFor s contract (order sheet).chain verifier circuit = .ok gate
  released : (gate.review (.bundle b) q desk.verifier).outcome = .ok (.ok values)

theorem origin_members (sheet : Sheet) (news captured : List (Text × Value)) :
    Loading.origin (members sheet) news captured = fun name =>
      (flag sheet name).or ((Value.latest news name).or (Value.find? captured name)) := by
  funext name
  rw [Loading.origin, latest_members]

variable [Address.CaseRule] {s : Settings} {j : Journal} {contract : Contract σ}
  {before sheet : Sheet} {desk : Desk σ} {captured news : List (Text × Value)} {gate : Gate σ}
  {b : Bundle} {q : Query} {values : List ℕ}

theorem Verified.releases
    (h : Verified s j contract before sheet desk captured news gate b q values) :
    Command.Releases s contract (order sheet) desk b q values := by
  refine ⟨gate, Command.prepare_eq_ok_iff.mpr ⟨captured, news, ?_⟩, h.released⟩
  exact ⟨h.chain, h.bundle, h.file, (origin_members sheet news captured).symm ▸ h.query, h.built⟩

theorem verified_of_releases {j' : Journal} (level : levelled j before = .ok j')
    (h : Command.Releases s contract (order sheet) desk b q values) :
    ∃ captured news gate,
      Verified s j contract before sheet desk captured news gate b q values := by
  obtain ⟨gate, prepared, released⟩ := h
  obtain ⟨captured, news, chain, bundle, file, query, built⟩ :=
    Command.prepare_eq_ok_iff.mp prepared
  exact ⟨captured, news, gate, ⟨j', level⟩, chain, bundle, file,
    origin_members sheet news captured ▸ query, built, released⟩

/-- The contract at the site of a verified line accepts. -/
theorem Verified.holds
    (h : Verified s j contract before sheet desk captured news gate b q values) :
    ∃ verifier address, Command.ownVerifier (sheet.text? "--verifier") = .ok verifier ∧
      Command.site s (order sheet).chain verifier = .ok address ∧
      (Pairing.ofContract (order sheet).chain address Backoff.forCalls contract b.proof b.inputs
        desk.verifier).outcome = .ok () := by
  obtain ⟨verifier, circuit, own, _, built⟩ := h.built
  obtain ⟨address, site, _, rfl⟩ := Command.gateFor_eq_ok_iff.mp built
  exact ⟨verifier, address, own, site, Command.holds_of_review h.released⟩

/-- **Nothing is verified unasked.** What was verified was accepted by a call that returned, of a
contract that was opened at the site of the line. -/
theorem Verified.answered
    (h : Verified s j contract before sheet desk captured news gate b q values) :
    ∃ verifier address t, Command.ownVerifier (sheet.text? "--verifier") = .ok verifier ∧
      Command.site s (order sheet).chain verifier = .ok address ∧
      (contract.opening (order sheet).chain address (.text Pairing.interface) t).outcome = .ok () ∧
      (contract.answer b.proof b.inputs
        (contract.opening (order sheet).chain address (.text Pairing.interface) t).state).outcome =
        .ok () := by
  obtain ⟨verifier, address, own, site, accepts⟩ := h.holds
  obtain ⟨t, _, opened, returned⟩ := Pairing.exists_answer_of_verify (fun _ => True)
    (fun _ _ => trivial) (fun _ _ => trivial) trivial accepts
  exact ⟨verifier, address, t, own, site, opened, returned⟩

/-- Where contracts are opened by their handles, no line is verified by a contract that is set at a
text that is no address. -/
theorem not_verified_of_unspelled {c : Settings} {i : Resource.Installation} {answer : Pairing σ}
    {desk : Desk (Handles × σ)} {gate : Gate (Handles × σ)}
    (reached : Handles.Reached c i desk.verifier.1)
    (unnamed : Command.given (sheet.text? "--verifier") = none) {t : Text}
    (set : s.verifier (order sheet).chain = .ok (.text t))
    (unspelled : ∀ n, ¬ Address.Writes n (.text t)) :
    ¬ Verified s j (.handled c i answer) before sheet desk captured news gate b q values := by
  intro h
  obtain ⟨verifier, address, own, site, accepts⟩ := h.holds
  rw [Command.ownVerifier, unnamed] at own
  cases own
  cases set.symm.trans site
  exact Contract.not_accepts_handled reached unspelled _ _ _ accepts

/-! ## Endings -/

/-- The endings with which the process returns zero. -/
def Ending.EndsWell (e : Ending σ) : Prop :=
  e.failure = none ∧ (e.status = none ∨ e.status = some 0)

/-- What a settled command leaves behind. -/
def ended (j : Journal) (t : Trace (Desk σ) (Option ℕ)) : Ending σ :=
  match t.outcome with
  | .ok status => ⟨status, none, t.events, j, t.state⟩
  | .error e => ⟨none, some e, t.events, j, t.state⟩

omit [Address.CaseRule] in
theorem endsWell_ended {t : Trace (Desk σ) (Option ℕ)} :
    (ended j t).EndsWell ↔ Command.EndsWell t.outcome := by
  unfold ended
  cases t.outcome with
  | ok status => simp [Ending.EndsWell, Command.EndsWell]
  | error e => simp [Ending.EndsWell, Command.EndsWell]

omit [Address.CaseRule] in
theorem desk_ended {t : Trace (Desk σ) (Option ℕ)} : (ended j t).desk = t.state := by
  unfold ended
  cases t.outcome <;> rfl

/-- What a run leaves behind when the result of a query is saved. -/
structure Written (sheet : Sheet) (q : Query) (values : List ℕ) (before : Folder) (e : Ending σ) :
    Prop where
  well : e.EndsWell
  saved : ∃ t spot, Json.write (Command.resultDocument q values) = .ok t ∧
    Saving.Saved before e.desk.folder
      (Saving.place (Command.outputName (sheet.text? "--output") q)).text (Utf8.encode t) spot
  read : Loading.json e.desk.folder
      (Saving.place (Command.outputName (sheet.text? "--output") q)).text =
    .ok (Command.resultDocument q values)

/-- The run of a line that verifies, once it is read. -/
theorem run_verify (s : Settings) (j : Journal) (contract : Contract σ) (desk : Desk σ)
    {args : List Text}
    (read : readWithCommand top commands args = .ok (before, verifyName, sheet)) :
    run s j contract args desk =
      match levelled j before with
      | .error e => ⟨none, some e, [], j, desk⟩
      | .ok j' => ended j' (Command.settle (Command.verifyBundle s contract (order sheet)) desk) := by
  have parsed : parse args =
      .ok (Command.given (before.text? "--log-level"), .verify (order sheet)) := by
    rw [parse, read]
    rfl
  rw [run, parsed]
  rfl

/-- A verified line saves its result, unless saving fails; then no file has changed. -/
theorem run_of_verified {args : List Text}
    (read : readWithCommand top commands args = .ok (before, verifyName, sheet))
    (verified : Verified s j contract before sheet desk captured news gate b q values) :
    (∀ path, (Command.saving (sheet.text? "--output") q values desk.folder).outcome = .ok path →
      Written sheet q values desk.folder (run s j contract args desk)) ∧
    ∀ e, (Command.saving (sheet.text? "--output") q values desk.folder).outcome = .error e →
      (run s j contract args desk).desk.folder.files = desk.folder.files ∧
        ¬ (run s j contract args desk).EndsWell := by
  obtain ⟨j', level⟩ := verified.level
  obtain ⟨folder, well, unwell⟩ := Command.settle_of_releases verified.releases
  have ending := run_verify s j contract desk read
  rw [level] at ending
  have output : (order sheet).output = sheet.text? "--output" := rfl
  rw [output] at folder well unwell
  have same : (run s j contract args desk).desk.folder =
      (Command.saving (sheet.text? "--output") q values desk.folder).state := by
    rw [ending, desk_ended, folder]
  obtain ⟨t, written, load⟩ := Loading.json_of_saved (Command.plain_resultDocument q values)
  have saves := Saving.save_spec written (Command.outputName (sheet.text? "--output") q) desk.folder
  rcases saves with ⟨saves, spot, saved⟩ | ⟨⟨e, fails⟩, files⟩
  · refine ⟨fun path out => ⟨?_, ⟨t, spot, written, ?_⟩, ?_⟩, ?_⟩
    · rw [ending, endsWell_ended, well path out]
      exact Or.inl rfl
    · rw [same]
      exact saved
    · rw [same]
      exact load _ _ saved.readBytes
    · intro e fails
      cases saves.symm.trans fails
  · refine ⟨fun path out => ?_, fun e out => ⟨?_, ?_⟩⟩
    · cases fails.symm.trans out
    · rw [same]
      exact files
    · rw [ending, endsWell_ended]
      exact unwell e out

/-- A line that is not verified leaves the folder as it is. -/
theorem run_of_not_verified {args : List Text}
    (read : readWithCommand top commands args = .ok (before, verifyName, sheet))
    (none : ∀ captured news gate b q values,
      ¬ Verified s j contract before sheet desk captured news gate b q values) :
    (run s j contract args desk).desk.folder = desk.folder ∧
      ¬ (run s j contract args desk).EndsWell := by
  have ending := run_verify s j contract desk read
  cases level : levelled j before with
  | error e =>
    rw [level] at ending
    rw [ending]
    refine ⟨rfl, ?_⟩
    rintro ⟨⟨⟩, _⟩
  | ok j' =>
    have unreleased : ∀ b q values,
        ¬ Command.Releases s contract (order sheet) desk b q values := by
      intro b q values releases
      obtain ⟨captured, news, gate, verified⟩ := verified_of_releases level releases
      exact none captured news gate b q values verified
    obtain ⟨folder, unwell⟩ := Command.settle_of_not_releases unreleased
    rw [level] at ending
    rw [ending, endsWell_ended, desk_ended]
    exact ⟨folder, unwell⟩

/-- A line with an address that is none changes nothing, and is told to end with status one if it
comes that far. -/
theorem run_of_misspelled {args : List Text}
    (read : readWithCommand top commands args = .ok (before, verifyName, sheet))
    (misspelled : Command.Misspelled (order sheet) desk.folder) :
    (run s j contract args desk).desk = desk ∧ ¬ (run s j contract args desk).EndsWell ∧
      ((∃ j', levelled j before = .ok j') → s.checkChain (order sheet).chain = .ok () →
        (run s j contract args desk).status = some 1) := by
  obtain ⟨e, failed, kind⟩ := Command.prepare_misspelled s contract misspelled
  obtain ⟨state, unwell, told⟩ := Command.settle_unprepared failed
  have ending := run_verify s j contract desk read
  cases level : levelled j before with
  | error e =>
    rw [level] at ending
    rw [ending]
    refine ⟨rfl, ?_, ?_⟩
    · rintro ⟨⟨⟩, _⟩
    · rintro ⟨_, ⟨⟩⟩
  | ok j' =>
    rw [level] at ending
    rw [ending, endsWell_ended, desk_ended]
    refine ⟨state, unwell, fun _ chain => ?_⟩
    have value : Command.Told e := by
      unfold Command.Told Failure.isA
      rw [kind chain]
      exact Or.inr rfl
    unfold ended
    rw [told value]

/-- **Only what was verified is saved.** A line that is refused changes nothing and ends with the
status of its refusal. Of lines that verify, whatever the settings, the files and the verifier: if a
file has changed then the query and the values were verified, and they are what the saved document
holds; if the line is not verified then nothing is saved and the process does not end with status
zero; a verified line saves its document, or fails without a change to any file; and a line with an
address in a form in which none is accepted changes nothing, asks no verifier and ends with status
one, unless its level or its chain is told to be wrong before. -/
theorem saves_only_verified (s : Settings) (j : Journal) (contract : Contract σ) (args : List Text)
    (desk : Desk σ) :
    (∀ refusal, readWithCommand top commands args = .error refusal →
      (run s j contract args desk).desk = desk ∧
        (run s j contract args desk).status = some refusal.status) ∧
    ∀ before sheet, readWithCommand top commands args = .ok (before, verifyName, sheet) →
      ((run s j contract args desk).desk.folder.files ≠ desk.folder.files →
        ∃ captured news gate b q values,
          Verified s j contract before sheet desk captured news gate b q values ∧
            Written sheet q values desk.folder (run s j contract args desk)) ∧
      ((∀ captured news gate b q values,
          ¬ Verified s j contract before sheet desk captured news gate b q values) →
        (run s j contract args desk).desk.folder = desk.folder ∧
          ¬ (run s j contract args desk).EndsWell) ∧
      (∀ captured news gate b q values,
        Verified s j contract before sheet desk captured news gate b q values →
        (∀ path, (Command.saving (sheet.text? "--output") q values desk.folder).outcome = .ok path →
          Written sheet q values desk.folder (run s j contract args desk)) ∧
        ∀ e, (Command.saving (sheet.text? "--output") q values desk.folder).outcome = .error e →
          (run s j contract args desk).desk.folder.files = desk.folder.files ∧
            ¬ (run s j contract args desk).EndsWell) ∧
      (Command.Misspelled (order sheet) desk.folder →
        (run s j contract args desk).desk = desk ∧ ¬ (run s j contract args desk).EndsWell ∧
        ((∃ j', levelled j before = .ok j') → s.checkChain (order sheet).chain = .ok () →
          (run s j contract args desk).status = some 1)) := by
  refine ⟨fun refusal refused => ?_, fun before sheet read => ⟨?_, ?_, ?_, ?_⟩⟩
  · have parsed : parse args = .error refusal := by
      rw [parse, refused, error_bind]
    rw [run, parsed]
    exact ⟨rfl, rfl⟩
  · intro changed
    by_cases verified : ∃ captured news gate b q values,
        Verified s j contract before sheet desk captured news gate b q values
    · obtain ⟨captured, news, gate, b, q, values, verified⟩ := verified
      obtain ⟨well, unwell⟩ := run_of_verified read verified
      cases saves : (Command.saving (sheet.text? "--output") q values desk.folder).outcome with
      | ok path => exact ⟨captured, news, gate, b, q, values, verified, well path saves⟩
      | error e => exact absurd (unwell e saves).1 changed
    · have kept := (run_of_not_verified read fun captured news gate b q values h =>
        verified ⟨captured, news, gate, b, q, values, h⟩).1
      rw [kept] at changed
      exact absurd rfl changed
  · exact run_of_not_verified read
  · exact fun captured news gate b q values verified => run_of_verified read verified
  · exact run_of_misspelled read

end CommandLine

/-! ## A result of the sample -/

namespace Sample

/-- The text of an address. -/
def site : Text := "0xabababababababababababababababababababab"

/-- Settings with a node and a verifying contract. -/
def settings : Settings :=
  { Settings.blank with
    endpoints := [(Settings.sepolia, .text "http://node")]
    anyVerifier := .text site }

/-- A contract that is opened by its handle and accepts every proof. -/
def accepting : Contract (Handles × Unit) :=
  .handled settings Resource.atRoot fun _ _ => pure ()

/-- A desk where no contract was opened yet. -/
def desk (d : Folder) : Desk (Handles × Unit) :=
  ⟨d, Handles.none, ()⟩

theorem opened_accepting :
    (accepting.opening (.int Settings.sepolia) (.text site) (.text Pairing.interface)
      (Handles.none, ())).outcome = .ok () := by
  have reached := Handles.reached_none settings Resource.atRoot
  have connected : ∃ p, Handles.none.connect settings (.int Settings.sepolia) = .ok p := ⟨_, rfl⟩
  have spelled : ∃ n, Address.Writes n (.text site) :=
    ⟨_, .small ⟨rfl, List.all_eq_true.mp rfl, rfl⟩⟩
  have there : Resource.readInterface Resource.atRoot (.text Pairing.interface) =
      .ok Resource.verifierInterface := rfl
  rw [accepting, Contract.opening_handled]
  exact reached.opening_eq_ok_iff.mpr ⟨connected, spelled, _, there⟩

/-- The words of the sample with a byte of filling, which no check looks at. -/
def stuffing : List Bytes :=
  (rest 0).take 11 ++ [Bytes.zeros 8 ++ 67 :: (Bytes.zeros 22 ++ [1])]

def stuffed (claimed : ℕ) : Bundle where
  words := List.replicate 10 (Bytes.zeros 32) ++ Bytes.ofNatBE 32 claimed :: stuffing
  count := rfl
  widths := by simp [stuffing, rest, Bytes.zeros]

theorem indistinct_stuffed (claimed : ℕ) :
    Bundle.Indistinct (stuffed claimed) (bundle claimed 0) := by
  have front : (stuffed claimed).words.take 11 = (bundle claimed 0).words.take 11 := rfl
  have cut : stuffing.flatten.take 368 = statement 0 := by decide +kernel
  have same : (stuffed claimed).statement = (bundle claimed 0).statement := cut
  apply Bundle.indistinct_of_toBytes
  show ((stuffed claimed).words.take 11).flatten ++ _ = _
  rw [front, same]
  rfl

/-- A folder with a captured call, and beside it the bundle and a document of the query. -/
def captured (claimed : ℕ) (call document : Text) : Folder :=
  ⟨[(⟨.work, ["call.txt"]⟩, Utf8.encode call), (⟨.work, ["bundle.bin"]⟩, (stuffed claimed).toBytes),
    (⟨.work, ["query.json"]⟩, Utf8.encode document)], []⟩

/-- The query that was captured begins at another block. -/
def capturedQuery : Query :=
  { query (.ofNat 0) with minBlock := 7 }

/-- A member of the query, a circuit and a name for the result. -/
def flags : List Text :=
  ["--min-block", "0", "--circuit-digest=0", "--output", "out.json"]

def line : List Text :=
  "verify-query" :: "--calldata" :: "call.txt" :: flags

def sheet : Options.Sheet :=
  ⟨[("--output", .text "out.json"), ("--circuit-digest", .text "0"), ("--min-block", .int 0),
    ("--calldata", .text "call.txt")], false⟩

def chainGate : Gate (Handles × Unit) :=
  Gate.ofCircuit
    (Pairing.ofContract (.int Settings.sepolia) (.text site) Backoff.forCalls accepting) 0

/-- Where the members of the sample come from: one from its switch, the others from the call. -/
def taken (name : Text) : Option Value :=
  (CommandLine.flag sheet name).or
    ((Value.latest [] name).or (Value.find? capturedQuery.toMembers name))

theorem bare_nft : (Value.int 67).bare = "67" := by
  have digits : Numeral.digits 10 67 = ['6', '7'] := by
    rw [Numeral.digits_of_le (by decide) (by decide), Numeral.digits_of_lt (by decide)]
    rfl
  show Text.ofString (Numeral.ofNat 67) = _
  rw [Numeral.ofNat, digits]

theorem asked_taken [Address.CaseRule] : Loading.Asked taken (query (.ofNat 0)) := by
  have address (name : Text) : Address.validate name (.text (Address.ofNat 0).checksum) =
      .ok (Address.ofNat 0) := Address.validate_eq_ok_iff.mpr ⟨.checksum rfl, _, rfl⟩
  constructor
  case contract => exact ⟨.text (Address.ofNat 0).checksum, rfl, address _⟩
  case user => exact ⟨.text (Address.ofNat 0).checksum, rfl, address _⟩
  case client =>
    have named : taken "client_address" = some (.text (Address.ofNat 0).checksum) := rfl
    rw [named]
    exact address _
  case minBlock => exact ⟨.int 0, rfl, rfl⟩
  case maxBlock => exact ⟨.int 0, rfl, rfl⟩
  case blockHash => exact ⟨.text (Query.hashText 0), rfl, rfl⟩
  case rewardsRate =>
    have named : taken "rewards_rate" = some (.int 0) := rfl
    rw [named]
    rfl
  case identifier =>
    refine ⟨.int 67, .nft, rfl, ?_, rfl⟩
    rw [bare_nft]
    rfl

theorem holds_accepting {claimed : ℕ} (small : claimed < scalarField) :
    (Pairing.ofContract (.int Settings.sepolia) (.text site) Backoff.forCalls accepting
      (bundle claimed 0).proof (bundle claimed 0).inputs (Handles.none, ())).outcome = .ok () := by
  have narrow : claimed < 256 ^ 32 := lt_trans small (by decide)
  have fields : ∀ n ∈ (bundle claimed 0).inputs.map Int.ofNat, inScalarField n = true := by
    rw [inputs_bundle, Bytes.natBE_ofNatBE, Nat.mod_eq_of_lt narrow, List.forall_mem_map]
    simp only [List.forall_mem_cons]
    exact ⟨rfl, rfl, inScalarField_natCast.mpr small, by simp⟩
  exact Pairing.verify_of_answered Pairing.usable_forCalls fields opened_accepting rfl

theorem reviewed {claimed : ℕ} (binds : claimed = Binding.statementDigest (statement 0)) :
    (chainGate.review (.bundle (stuffed claimed)) (query (.ofNat 0)) (Handles.none, ())).outcome =
      .ok (.ok [0, 0, 0, 0, 0]) := by
  have small : claimed < scalarField := by
    rw [binds]
    exact Binding.statementDigest_lt _
  have known : gate = Gate.ofCircuit (fun _ _ => pure ()) 0 := rfl
  have release := released binds (.ofNat 0)
  rw [known] at release
  obtain ⟨b, read, _, passed, same⟩ :=
    (Gate.release_eq_ok_iff_guards (o := .bundle (bundle claimed 0))).mp release
  cases read
  rw [Gate.review_eq_ok_iff, (indistinct_stuffed claimed).runs]
  exact (Gate.release_eq_ok_iff_guards (o := .bundle (bundle claimed 0))).mpr
    ⟨_, rfl, holds_accepting small, passed, same⟩

theorem saves_captured (claimed : ℕ) (call document : Text) :
    (Command.saving (some "out.json") (query (.ofNat 0)) [0, 0, 0, 0, 0]
      (captured claimed call document)).outcome = .ok (Saving.place "out.json").text := by
  obtain ⟨t, written, _⟩ :=
    Loading.json_of_saved (Command.plain_resultDocument (query (.ofNat 0)) [0, 0, 0, 0, 0])
  have named : Command.outputName (some "out.json") (query (.ofNat 0)) = "out.json" := rfl
  rw [Command.saving, named, Saving.save_apply written]
  rfl

theorem load_captured {claimed : ℕ} {call document : Text}
    (written : Calldata.encodeText (stuffed claimed) capturedQuery = .ok call) :
    Command.load (.calldata "call.txt") (captured claimed call document) =
      .ok (stuffed claimed, capturedQuery.toMembers) := by
  have held : Loading.HoldsCall (captured claimed call document) "call.txt" call :=
    .text (by decide) rfl
  rw [Command.load, Loading.calldata_of_holds written held, map_ok]

theorem verified_line [Address.CaseRule] {claimed : ℕ}
    (binds : claimed = Binding.statementDigest (statement 0)) {call : Text} (document : Text)
    (written : Calldata.encodeText (stuffed claimed) capturedQuery = .ok call) (j : Journal)
    (before : Options.Sheet) (level : ∃ j', CommandLine.levelled j before = .ok j') :
    CommandLine.Verified settings j accepting before sheet (desk (captured claimed call document))
      capturedQuery.toMembers [] chainGate (stuffed claimed) (query (.ofNat 0))
      [0, 0, 0, 0, 0] where
  level := level
  chain := rfl
  bundle := load_captured written
  file := rfl
  query := asked_taken
  built := ⟨none, 0, rfl, rfl, rfl⟩
  released := reviewed binds

/-- The same line with a contract whose letters are not as its checksum has them. -/
def miscased : Text := "0xB90ed61bffed1df72f2ceebd965198ad57adfcbd"

def miscasedSheet : Options.Sheet :=
  ⟨[("--contract", .text miscased), ("--calldata", .text "call.txt")], false⟩

theorem not_accepted_miscased (n : ℕ) : ¬ @Address.Accepted .checksum n (.text miscased) := by
  let rule : Address.CaseRule := .checksum
  intro accepted
  obtain ⟨a, rfl⟩ := accepted.writes.exists_address
  have unknown : Address.recognize? miscased = none := by decide +kernel
  cases unknown.symm.trans (Address.recognize_eq_some_iff.mpr accepted)

end Sample

namespace CommandLine

/-- A line without a bundle is refused. A call that was captured with a query from another block is
verified with the block that its line names, and the result is saved for that query. With another
contract in letters of both cases the line ends with status one and nothing is saved. -/
theorem saves_only_verified_sample :
    (∀ d, (@run .checksum _ Sample.settings ⟨.int 20, 1⟩ Sample.accepting ["verify-query"]
      (Sample.desk d)).status = some 2) ∧
    ∃ claimed call, claimed = Binding.statementDigest (Sample.statement 0) ∧
      Calldata.encodeText (Sample.stuffed claimed) Sample.capturedQuery = .ok call ∧
      ∀ document,
        let desk := Sample.desk (Sample.captured claimed call document)
        Written Sample.sheet (Sample.query (.ofNat 0)) [0, 0, 0, 0, 0] desk.folder
          (@run .checksum _ Sample.settings ⟨.int 20, 1⟩ Sample.accepting Sample.line desk) ∧
        (@run .checksum _ Sample.settings ⟨.int 20, 1⟩ Sample.accepting
          ["verify-query", "--calldata", "call.txt", "--contract", Sample.miscased] desk).desk =
            desk ∧
        (@run .checksum _ Sample.settings ⟨.int 20, 1⟩ Sample.accepting
          ["verify-query", "--calldata", "call.txt", "--contract", Sample.miscased] desk).status =
            some 1 := by
  let rule : Address.CaseRule := .checksum
  constructor
  · intro d
    exact ((saves_only_verified Sample.settings ⟨.int 20, 1⟩ Sample.accepting ["verify-query"]
      (Sample.desk d)).1 .usage rfl).2
  · have narrow : Sample.capturedQuery.identifier.toNat < 256 := by decide
    obtain ⟨claimed, binds⟩ : ∃ n, n = Binding.statementDigest (Sample.statement 0) := ⟨_, rfl⟩
    obtain ⟨call, written, _⟩ := Calldata.ofValue_text (b := Sample.stuffed claimed) narrow
    refine ⟨claimed, call, binds, written, fun document => ?_⟩
    intro desk
    have verified := Sample.verified_line binds document written ⟨.int 20, 1⟩
      Options.Sheet.blank ⟨_, rfl⟩
    obtain ⟨_, _, saves, _⟩ := (saves_only_verified Sample.settings ⟨.int 20, 1⟩ Sample.accepting
      Sample.line desk).2 Options.Sheet.blank Sample.sheet rfl
    obtain ⟨_, _, _, refuses⟩ := (saves_only_verified Sample.settings ⟨.int 20, 1⟩ Sample.accepting
      ["verify-query", "--calldata", "call.txt", "--contract", Sample.miscased] desk).2
        Options.Sheet.blank Sample.miscasedSheet rfl
    have misspelled : Command.Misspelled (order Sample.miscasedSheet) desk.folder :=
      .member (Sample.load_captured written) rfl
        (show ("contract_address" : Text) ∈ Loading.addressNames by decide) rfl
        fun n _ _ => Sample.not_accepted_miscased n
    obtain ⟨kept, _, status⟩ := refuses misspelled
    exact ⟨(saves _ _ _ _ _ _ verified).1 _ (Sample.saves_captured claimed call document), kept,
      status ⟨_, rfl⟩ rfl⟩

end CommandLine

end ProofGate
