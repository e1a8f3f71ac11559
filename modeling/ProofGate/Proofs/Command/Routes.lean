import ProofGate.Proofs.Command.Saved

/-!
# Two routes to one verification

A bundle and its query can be handed over as one captured call, or as the bytes that a prover writes
beside a document that holds the query. The first keeps the filling of the bundle and reads the
query from words, the second loses the filling and reads the query from its texts. Whatever else is
asked for, both end alike.
-/

namespace ProofGate

/-! ## One query -/

namespace Loading

/-- The members of a file lie over none as they are. -/
theorem query_of_document [Address.CaseRule] {d : Folder} {file : Text} (named : file ≠ [])
    {q : Query} (read : json d file = .ok q.toValue) (given : List (Text × Value)) :
    query d [] (some file) given = query d q.toMembers none given := by
  have distinct : (([] ++ q.toMembers).map Prod.fst).Nodup := by
    rw [List.nil_append, Query.names_toMembers]
    decide
  have overlaid : overlay [] q.toValue = .ok q.toMembers := by
    show Except.ok (q.toMembers.foldl (fun ms m => Value.put ms m.1 m.2) []) = _
    rw [Value.foldl_put distinct, List.nil_append]
  have filled : file.isEmpty = false := by
    rw [List.isEmpty_eq_false_iff]
    exact named
  unfold query
  simp only [filled, read, ok_bind, overlaid]
  rfl

end Loading

/-! ## Two orders -/

namespace Command

variable {σ : Type}

/-- The files of both routes lie side by side: the captured call, what a prover writes, and a
document of the query. -/
structure Files (d : Folder) (b : Bundle) (q : Query) (call c p k : Text) : Prop where
  captured : Loading.HoldsCall d c call
  other : (Path.ofText p).suffix ≠ ".json"
  proof : d.readBytes (Path.ofText p).text = .ok b.toBytes
  query : Loading.json d k = .ok q.toValue

/-- Both routes prepare the same, but for the filling of the bundle. -/
theorem prepare_routes [Address.CaseRule] {d : Folder} {b : Bundle} {q : Query}
    {call c p k : Text} (files : Files d b q call c p k)
    (written : Calldata.encodeText b q = .ok call) (s : Settings) (contract : Contract σ)
    (o : Order) :
    ∃ r : Except Failure (Gate σ × Query),
      prepare s contract { o with source := .calldata c, queryFile := none } d =
        r.map (fun x => (x.1, b, x.2)) ∧
      prepare s contract { o with source := .proof (.text p), queryFile := some k } d =
        r.map (fun x => (x.1, b.unfilled, x.2)) := by
  have first : load (.calldata c) d = .ok (b, q.toMembers) := by
    rw [load, Loading.calldata_of_holds written files.captured, map_ok]
  have second : load (.proof (.text p)) d = .ok (b.unfilled, []) := by
    have bundle : Loading.bundle d p = .ok b.unfilled := by
      simp only [Loading.bundle, if_neg files.other, files.proof, ok_bind, Bundle.ofBytes_toBytes]
    simp only [load, asPath, Value.text?, ok_bind, bundle]
    rfl
  have query : Loading.query d [] (some k) o.members = Loading.query d q.toMembers none o.members :=
    Loading.query_of_document (Loading.path_ne_nil files.query) files.query o.members
  refine ⟨arrange s contract o (Loading.query d q.toMembers none o.members), ?_, ?_⟩
  · rw [prepare_of_load (o := { o with source := .calldata c, queryFile := none }) first]
    simp only [arrange]
  · rw [prepare_of_load (o := { o with source := .proof (.text p), queryFile := some k }) second]
    simp only [query, arrange]

theorem verifyBundle_routes [Address.CaseRule] {desk : Desk σ} {b : Bundle} {q : Query}
    {call c p k : Text} (files : Files desk.folder b q call c p k)
    (written : Calldata.encodeText b q = .ok call) (s : Settings) (contract : Contract σ)
    (o : Order) :
    verifyBundle s contract { o with source := .calldata c, queryFile := none } desk =
      verifyBundle s contract { o with source := .proof (.text p), queryFile := some k } desk := by
  obtain ⟨r, first, second⟩ := prepare_routes files written s contract o
  rw [verifyBundle_apply, verifyBundle_apply, first, second, Run.ofExcept_map_bind,
    Run.ofExcept_map_bind]
  cases r with
  | error e => simp only [Run.ofExcept_error_bind]
  | ok x =>
    obtain ⟨gate, asked⟩ := x
    -- No gate tells the bundle from the one without its filling.
    have review : gate.review (.bundle b) asked = gate.review (.bundle b.unfilled) asked := by
      funext state
      rw [Gate.review_apply, Gate.review_apply, (Bundle.indistinct_unfilled b).runs]
    simp only [Run.ofExcept_ok_bind, review]

end Command

/-! ## Two lines -/

namespace CommandLine

open Options

/-- Arguments of which none is read as the name of a file to load. -/
def NoFiles (rest : List Text) : Prop :=
  ∀ ts, classifyAll verifyGrammar rest = .ok ts → Spares fileSwitches ts

variable {front : List Text} {level : List (Text × Value)} {rest : List Text}

/-- A line that begins with a captured call. -/
theorem parse_calldata (before : Front front level) {c : Text} (named : c ≠ []) {cs : List Text}
    (gives : Gives "--calldata" c cs) (spared : NoFiles rest) :
    parse (front ++ verifyName :: (cs ++ rest)) =
      (orderOf level rest).map fun x =>
        (x.1, .verify { x.2 with source := .calldata c, queryFile := none }) := by
  have file : ("--calldata" : Text) ∈ fileSwitches := by decide
  have sets : Sets verifyGrammar cs [("--calldata", .text c)] :=
    gives.sets (w := text "--calldata") proper_verifyGrammar (knows_file file) rfl
  have path : Command.given (some c) = some c := by
    rw [Command.given, Option.filter_some, if_pos (decide_eq_true named)]
  have source : source ⟨[("--calldata", .text c)], false⟩ = .calldata c := by
    have named : Command.given (Sheet.text? ⟨[("--calldata", .text c)], false⟩ "--calldata") =
        some c := path
    rw [CommandLine.source, named]
  rw [parse_files before sets (classifies_file file gives) (by simp [file])
    "--calldata" (by decide) rfl spared, source]
  rfl

/-- A line that begins with a proof and the document of its query. -/
theorem parse_proof (before : Front front level) {p k : Text} {ps ks : List Text}
    (gives : Gives "--proof" p ps) (asks : Gives "--query" k ks) (spared : NoFiles rest) :
    parse (front ++ verifyName :: (ps ++ ks ++ rest)) =
      (orderOf level rest).map fun x =>
        (x.1, .verify { x.2 with source := .proof (.text p), queryFile := some k }) := by
  have file : ("--proof" : Text) ∈ fileSwitches := by decide
  have file' : ("--query" : Text) ∈ fileSwitches := by decide
  have sets : Sets verifyGrammar (ps ++ ks) [("--query", .text k), ("--proof", .text p)] :=
    (gives.sets (w := text "--proof") proper_verifyGrammar (knows_file file) rfl).give
      proper_verifyGrammar (w := text "--query") (knows_file file') rfl (by decide) asks
  obtain ⟨first, ahead⟩ := classifies_file file gives
  obtain ⟨second, behind⟩ := classifies_file file' asks
  rw [parse_files before sets ⟨_, ahead.append behind⟩ (by simp [file, file']) "--proof"
    (by decide) rfl spared]
  rfl

/-- **The routes agree.** For every bundle and every query that a call can hold both routes can be
written down, the query as a document that is loaded as it was. Whatever the settings, the verifier
and the other arguments are, they end alike: with the same status or the same failure, with the same
lines shown, and with the same files. -/
theorem routes_agree [Address.CaseRule] (b : Bundle) (q : Query)
    (narrow : q.identifier.toNat < 256) :
    ∃ call document, Calldata.encodeText b q = .ok call ∧ Json.write q.toValue = .ok document ∧
      (∀ (d : Folder) (k : Text), d.readBytes k = .ok (Utf8.encode document) →
        Loading.json d k = .ok q.toValue) ∧
      ∀ {σ : Type} (s : Settings) (j : Journal) (contract : Contract σ) (desk : Desk σ)
        (c p k : Text), Command.Files desk.folder b q call c p k →
        ∀ (front : List Text) (level : List (Text × Value)), Front front level →
        ∀ cs ps ks, Gives "--calldata" c cs → Gives "--proof" p ps → Gives "--query" k ks →
        ∀ rest, NoFiles rest →
          run s j contract (front ++ verifyName :: (cs ++ rest)) desk =
            run s j contract (front ++ verifyName :: (ps ++ ks ++ rest)) desk := by
  obtain ⟨call, written, _⟩ := Calldata.ofValue_text (b := b) narrow
  obtain ⟨document, saved, load⟩ := Loading.json_of_saved q.plain_toValue
  refine ⟨call, document, written, saved, load, ?_⟩
  intro σ s j contract desk c p k files front level before cs ps ks gives proves asks rest spared
  rw [run, run, parse_calldata before files.captured.path_ne_nil gives spared,
    parse_proof before proves asks spared]
  cases orderOf level rest with
  | error r => rfl
  | ok x =>
    obtain ⟨name, o⟩ := x
    have same := Command.verifyBundle_routes files written s contract o
    have settled : Command.settle (Command.run s contract (.verify { o with
          source := .calldata c, queryFile := none })) desk =
        Command.settle (Command.run s contract (.verify { o with
          source := .proof (.text p), queryFile := some k })) desk := by
      rw [Command.settle_apply, Command.settle_apply, Command.run, Command.run, same]
    simp only [map_ok, settled]

end CommandLine

/-! ## Routes of the sample -/

namespace Sample

theorem files_captured {claimed : ℕ} {call document : Text}
    (read : Loading.json (captured claimed call document) "query.json" =
      .ok capturedQuery.toValue) :
    Command.Files (captured claimed call document) (stuffed claimed) capturedQuery call "call.txt"
      "bundle.bin" "query.json" where
  captured := .text (by decide) rfl
  other := by decide
  proof := rfl
  query := read

theorem flags_name_no_file : CommandLine.NoFiles flags := by
  intro ts read arg w joined inside
  have known : Options.classifyAll CommandLine.verifyGrammar flags =
      .ok [("--min-block", .switch (CommandLine.number "--min-block") none), ("0", .plain),
        ("--circuit-digest=0", .switch (CommandLine.text "--circuit-digest") (some "0")),
        ("--output", .switch (CommandLine.text "--output") none), ("out.json", .plain)] := rfl
  obtain rfl := Except.ok.inj (known.symm.trans read)
  simp only [List.mem_cons, Prod.mk.injEq, List.not_mem_nil, or_false, reduceCtorEq, and_false,
    false_or, Options.Token.switch.injEq] at inside
  rcases inside with ⟨_, rfl, _⟩ | ⟨_, rfl, _⟩ | ⟨_, rfl, _⟩ <;> decide

/-- The line of the captured call, and the one of the bundle and the document. -/
def routes : List Text × List Text :=
  ("--log-level=DEBUG" :: line,
    "--log-level=DEBUG" :: "verify-query" :: "--proof=bundle.bin" :: "--query" :: "query.json" ::
      flags)

end Sample

namespace CommandLine

/-- A bundle with filling, verified by a captured call and by its bytes, with a level in front and
with a member given anew: on both routes the result is saved. -/
theorem routes_agree_sample :
    ∃ claimed call document, claimed = Binding.statementDigest (Sample.statement 0) ∧
      Calldata.encodeText (Sample.stuffed claimed) Sample.capturedQuery = .ok call ∧
      Json.write Sample.capturedQuery.toValue = .ok document ∧
      let desk := Sample.desk (Sample.captured claimed call document)
      @run .checksum _ Sample.settings ⟨.int 20, 1⟩ Sample.accepting Sample.routes.1 desk =
        @run .checksum _ Sample.settings ⟨.int 20, 1⟩ Sample.accepting Sample.routes.2 desk ∧
      Written Sample.sheet (Sample.query (.ofNat 0)) [0, 0, 0, 0, 0] desk.folder
        (@run .checksum _ Sample.settings ⟨.int 20, 1⟩ Sample.accepting Sample.routes.1 desk) := by
  let rule : Address.CaseRule := .checksum
  obtain ⟨claimed, binds⟩ : ∃ n, n = Binding.statementDigest (Sample.statement 0) := ⟨_, rfl⟩
  have narrow : Sample.capturedQuery.identifier.toNat < 256 := by decide
  obtain ⟨call, document, written, saved, load, agree⟩ :=
    routes_agree (Sample.stuffed claimed) Sample.capturedQuery narrow
  refine ⟨claimed, call, document, binds, written, saved, ?_⟩
  intro desk
  constructor
  · have front : Front ["--log-level=DEBUG"] [("--log-level", .text "DEBUG")] :=
      .level (.together (by decide))
    exact agree Sample.settings ⟨.int 20, 1⟩ Sample.accepting desk _ _ _
      (Sample.files_captured (load _ _ rfl)) _ _ front _ _ _ (.apart (by decide))
      (.together (by decide)) (.apart (by decide)) _ Sample.flags_name_no_file
  · have verified := Sample.verified_line binds document written ⟨.int 20, 1⟩
      ⟨[("--log-level", .text "DEBUG")], false⟩ ⟨_, rfl⟩
    exact (run_of_verified rfl verified).1 _ (Sample.saves_captured claimed call document)

end CommandLine

end ProofGate
