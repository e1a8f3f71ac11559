import ProofGate.Command.Loading
import ProofGate.Command.Options
import ProofGate.Console
import ProofGate.Review
import ProofGate.Saving
import ProofGate.Statement.Encode

/-!
# Commands

Three commands: show the statement of a bundle, verify a bundle against a query, and write the
bytes of a statement. A command works on the working directory and may ask a verifier. It ends
by itself, with a status, or with a failure that is not its own to tell.
-/

namespace ProofGate

/-- Where a bundle comes from. The path of a proof is any value, as far as the command line goes:
none may be given. -/
inductive Source where
  | calldata (path : Text)
  | proof (path : Value)

def Source.path : Source → Option Text
  | calldata path => some path
  | proof path => path.text?

/-- What the verification of a bundle is asked for. -/
structure Order where
  source : Source
  queryFile : Option Text
  members : List (Text × Value)
  chain : Value
  circuit : Value
  verifier : Option Text
  output : Option Text

inductive Command where
  | decode (source : Source) (output : Option Text)
  | verify (order : Order)
  | encode (fields : Value) (output : Option Text)

/-- The working directory and the state of the verifier. -/
structure Desk (σ : Type) where
  folder : Folder
  verifier : σ

namespace Command

variable {σ : Type}

/-! ## Steps -/

def onFolder {α : Type} (r : Run Folder α) : Run (Desk σ) α :=
  r.within Desk.folder fun d desk => { desk with folder := d }

def onVerifier {α : Type} (r : Run σ α) : Run (Desk σ) α :=
  r.within Desk.verifier fun s desk => { desk with verifier := s }

def reading {α : Type} (f : Folder → Except Failure α) : Run (Desk σ) α :=
  onFolder fun d => ⟨f d, [], d⟩

def say (markup : Text) : Run (Desk σ) Unit :=
  Run.print (.line markup)

/-- An option that says something. -/
def given (o : Option Text) : Option Text :=
  o.filter (· ≠ [])

def save (document : Value) (file : Text) : Run (Desk σ) Unit := do
  let _ ← onFolder (Saving.save document (.text file) (.text Saving.folderName) true)

/-- Only a text is a path. -/
def asPath (v : Value) : Except Failure Text :=
  match v.text? with
  | some path => .ok path
  | none => .error (.notText v)

/-- The bundle of a source, and the members of the query captured with it. -/
def load (source : Source) (d : Folder) : Except Failure (Bundle × List (Text × Value)) :=
  match source with
  | .calldata path => (Loading.calldata d path).map fun r => (r.1, r.2.toMembers)
  | .proof path => do
    let b ← Loading.bundle d (← asPath path)
    pure (b, [])

/-! ## The commands -/

/-- The paths of the files that a command reads. -/
def reads : Command → List Text
  | .decode source _ => source.path.toList
  | .verify order => order.source.path.toList ++ order.queryFile.toList
  | .encode fields _ => fields.text?.toList

def hexValues (ns : List Nat) : Value :=
  .list (ns.map fun (n : Nat) => .text (Numeral.hexNat n))

def showStatement (source : Source) (output : Option Text) : Run (Desk σ) (Option Nat) := do
  let (b, _) ← reading (load source)
  let s ← Run.ofExcept (Statement.decode b.statement Layout.standard)
  let digest := Binding.statementDigest b.statement
  let inputs := b.inputs.map fun (n : Nat) => Value.int n
  let marks := b.inputs.map fun (n : Nat) => inScalarField n
  Run.print (.table (← Run.ofExcept (Console.inputsTable inputs marks)))
  Run.print (.table (← Run.ofExcept (Console.statementTable s digest)))
  if b.inputs[2]? = some digest then
    say "[green]✓ Public inputs match the proof digest[/green]"
  else say "[red]✗ Public inputs do not match the proof digest[/red]"
  match given output with
  | some file =>
    let members ← Run.ofExcept s.toValue
    save (.object [("groth16_inputs", hexValues b.inputs), ("public_inputs", members),
      ("digest", .text (Numeral.hexNat digest))]) file
  | none => pure ()
  pure none

/-- One line for each finding of a failed report. -/
def complaints {α : Type} (r : Report α) : List Text :=
  r.findings.map fun f => "[red]" ++ f.heading.bare ++ ":[/red] " ++ f.message.bare

def sayAll : List Text → Run (Desk σ) Unit
  | [] => pure ()
  | line :: rest => do
    say line
    sayAll rest

/-- Tells of a failed report and ends with status one; goes on after another. -/
def stopOn {α : Type} (r : Report α) : Run (Desk σ) (Option Nat) :=
  if r.success then pure none
  else do
    sayAll (complaints r)
    pure (some 1)

def resultDocument (q : Query) (values : List Nat) : Value :=
  .object [("query", q.toValue),
    ("identifier", .text (Console.tagText (.int q.identifier.toNat))),
    ("result", .list (values.map fun (v : Nat) => .text (Numeral.ofNat v)))]

/-- The gate that asks the verifying contract of a chain. -/
def gateFor (s : Settings) (contract : Contract σ) (chain : Value) (verifier : Option Address)
    (circuit : Int) : Except Failure (Gate σ) := do
  let address ← match verifier with
    | some a => pure (Value.text a.checksum)
    | none => s.verifier chain
  let _ ← s.endpoint chain
  pure
    { pairing := Pairing.ofContract chain address Backoff.forCalls contract
      circuit := .int circuit
      layout := Layout.standard }

def verifyBundle [Address.CaseRule] (s : Settings) (contract : Contract σ) (o : Order) :
    Run (Desk σ) (Option Nat) := do
  Run.ofExcept (s.checkChain o.chain)
  let verifier ← Run.ofExcept <| match given o.verifier with
    | some v => (Address.validate "verifier" (.text v)).map some
    | none => pure none
  let (b, captured) ← reading (load o.source)
  let q ← reading fun d => Loading.query d captured o.queryFile o.members
  let circuit ← Run.ofExcept (s.circuitDigest o.circuit)
  let gate ← Run.ofExcept (gateFor s contract o.chain verifier circuit)
  let r ← onVerifier (gate.review (.bundle b) q)
  match ← stopOn r with
  | some status => pure (some status)
  | none =>
    let values := r.data.getD []
    say ("[green]✓ Verified " ++ Console.tagText (.int q.identifier.toNat) ++ " query[/green] for "
      ++ Console.shortAddress q.user ++ " on " ++ Console.shortAddress q.contract)
    sayAll (values.map fun (v : Nat) => "  " ++ Numeral.ofNat v)
    save (resultDocument q values)
      ((given o.output).getD ("query_result_" ++ Gate.blocks q "_" ++ ".json"))
    pure none

def writeStatement [Address.CaseRule] (fields : Value) (output : Option Text) :
    Run (Desk σ) (Option Nat) := do
  let v ← reading fun d => do Loading.json d (← asPath fields)
  let s ← Run.ofExcept (Statement.ofValue v)
  let data ← Run.ofExcept (s.encode Layout.standard)
  let digest := Binding.statementDigest data
  Run.print (.table (← Run.ofExcept (Console.statementTable s digest)))
  save (.object [("public_inputs", .text (Hex.marked data)),
      ("words", .list ((Statement.splitWords data).map fun (w : Bytes) => .text (Hex.marked w))),
      ("digest", .text (Numeral.hexNat digest))])
    ((given output).getD "public_inputs.json")
  pure none

def run [Address.CaseRule] (s : Settings) (contract : Contract σ) :
    Command → Run (Desk σ) (Option Nat)
  | .decode source output => showStatement source output
  | .verify order => verifyBundle s contract order
  | .encode fields output => writeStatement fields output

/-- Tells of a failure: a rejection, a fault of the settings or an unfit value ends the command
with status one, any other failure goes on. -/
def settle (r : Run (Desk σ) (Option Nat)) : Run (Desk σ) (Option Nat) := do
  match ← r.attempt with
  | .ok status => pure status
  | .error e =>
    if e.isA .permanent || e.isA .value then do
      say (Console.complaint e)
      pure (some 1)
    else do
      say ("[red]Error:[/red] " ++ e.text)
      Run.fail e

end Command

end ProofGate
