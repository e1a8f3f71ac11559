import ProofGate.Proofs.Command.Saved
import ProofGate.Proofs.Statement.Described

/-!
# Commands on statements

One command shows the statement of a bundle, and another writes the bytes of a statement that a file
describes. Both end with a document that they save, and the second tells of a description that it
cannot read, as far as the failure is one that tells what is wrong.
-/

namespace ProofGate

/-! ## Tables -/

namespace Console

variable {s : Statement}

end Console

/-! ## Lines of commands -/

namespace CommandLine

variable {σ : Type}

/-- The log at the level that is asked for. -/
def adjusted (j : Journal) (level : Option Text) : Except Failure Journal :=
  match level with
  | some name => j.setLevel (.text name)
  | none => .ok j

/-- An argument list that is a command, at a level that the log can have. -/
def Reads (j : Journal) (args : List Text) (c : Command) (j' : Journal) : Prop :=
  ∃ level, parse args = .ok (level, c) ∧ adjusted j level = .ok j'

theorem run_of_reads [Address.CaseRule] {s : Settings} {j j' : Journal} {contract : Contract σ}
    {args : List Text} {c : Command} {desk : Desk σ} (reads : Reads j args c j') :
    run s j contract args desk = ended j' (Command.settle (c.run s contract) desk) := by
  obtain ⟨level, parsed, set⟩ := reads
  rw [run, parsed]
  cases level with
  | none =>
    cases set
    rfl
  | some name =>
    have set : j.setLevel (.text name) = .ok j' := set
    simp only [set]
    rfl

end CommandLine

namespace Command

variable {σ : Type}

/-! ## Statements that are written -/

/-- The statement that a file describes. -/
def described [Address.CaseRule] (d : Folder) (path : Text) : Except Failure Statement := do
  Statement.ofValue (← Loading.json d path)

/-- The document of the bytes of a statement. -/
def bytesDocument (data : Bytes) : Value :=
  .object [("public_inputs", .text (Hex.marked data)),
    ("words", .list ((Statement.splitWords data).map fun w : Bytes => .text (Hex.marked w))),
    ("digest", .text (Numeral.hexNat (Binding.statementDigest data)))]

/-- What is shown and saved once there is a statement. -/
def publish (output : Option Text) (s : Statement) : Run (Desk σ) (Option ℕ) := do
  let data ← Run.ofExcept (s.encode Layout.standard)
  Run.print (.table (← Run.ofExcept (Console.statementTable s (Binding.statementDigest data))))
  save (bytesDocument data) ((given output).getD "public_inputs.json")
  pure none

theorem writeStatement_apply [Address.CaseRule] (path : Text) (output : Option Text)
    (desk : Desk σ) :
    writeStatement (.text path) output desk =
      (Run.ofExcept (described desk.folder path) >>= publish output) desk := by
  show (reading (fun d => Loading.json d path) >>= fun v =>
    Run.ofExcept (Statement.ofValue v) >>= publish output) desk = _
  rw [reading_bind, described]
  cases Loading.json desk.folder path <;> rfl

end Command

/-! ## Descriptions that are refused -/

theorem Statement.Foreseen.told {e : Failure} (foreseen : Statement.Foreseen e.kind) :
    Command.Told e := by
  unfold Command.Told Failure.isA
  rcases foreseen with kind | kind <;> rw [kind] <;> decide

theorem Statement.Escapes.not_told [Address.CaseRule] {ms : List (Text × Value)} {e : Failure}
    (escapes : Statement.Escapes ms e) : ¬ Command.Told e := by
  unfold Command.Told Failure.isA
  rcases escapes.kind with kind | kind <;> rw [kind] <;> decide

namespace CommandLine

variable [Address.CaseRule] {σ : Type} {s : Settings} {j j' : Journal} {contract : Contract σ}
  {args : List Text} {desk : Desk σ} {path : Text} {output : Option Text}

/-- A description that is refused is told of, with an end of its own if the failure is one that a
command tells of. -/
theorem run_of_refused (reads : Reads j args (.encode (.text path) output) j') {e : Failure}
    (refused : Command.described desk.folder path = .error e) :
    run s j contract args desk =
      if Command.Told e then ⟨some 1, none, [.printed (.line (Console.complaint e))], j', desk⟩
      else ⟨none, some e, [.printed (.line ("[red]Error:[/red] " ++ e.text))], j', desk⟩ := by
  have failed : Command.writeStatement (.text path) output desk = ⟨.error e, [], desk⟩ := by
    rw [Command.writeStatement_apply, refused, Run.ofExcept_error_bind, Run.fail_apply]
  have settled : Command.settle (Command.run s contract (.encode (.text path) output)) desk =
      if Command.Told e then ⟨.ok (some 1), [.printed (.line (Console.complaint e))], desk⟩
      else ⟨.error e, [.printed (.line ("[red]Error:[/red] " ++ e.text))], desk⟩ := by
    show Command.settle (Command.writeStatement (.text path) output) desk = _
    rw [Command.settle_apply, failed]
    rfl
  rw [run_of_reads reads, settled]
  split <;> rfl

end CommandLine

end ProofGate
