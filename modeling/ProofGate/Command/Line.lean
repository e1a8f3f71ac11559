import ProofGate.Command
import ProofGate.Levels

/-!
# The command line

From an argument list to a command, and to all that its run leaves behind.
-/

namespace ProofGate.CommandLine

open Options

/-! ## Grammars -/

def text (name : Text) : Switch :=
  ⟨name, false⟩

def number (name : Text) : Switch :=
  ⟨name, true⟩

def top : Grammar :=
  { switches := [text "--log-level"], required := [], oneOf := [] }

def sources : List Switch :=
  [text "--proof", text "--calldata"]

/-- Switches that set members of the query, with the members' names. -/
def memberSwitches : List (Switch × Text) :=
  [(text "--contract", "contract_address"), (text "--user", "user_address"),
    (text "--client", "client_address"), (number "--min-block", "min_block_number"),
    (number "--max-block", "max_block_number"), (text "--block-hash", "block_hash"),
    (text "--rewards-rate", "rewards_rate"), (text "--identifier", "identifier")]

def commands : List (Text × Grammar) :=
  [("decode-pis",
    { switches := sources ++ [text "--output"]
      required := []
      oneOf := sources.map Switch.name }),
   ("verify-query",
    { switches := sources ++ [text "--query"] ++ memberSwitches.map Prod.fst
        ++ [number "--chain-id", text "--circuit-digest", text "--verifier", text "--output"]
      required := []
      oneOf := sources.map Switch.name }),
   ("encode-pis",
    { switches := [text "--fields", text "--output"]
      required := ["--fields"]
      oneOf := [] })]

def usage : String :=
  "usage: proof-gate [--log-level NAME] COMMAND ..., where COMMAND is one of "
    ++ ", ".intercalate (commands.map fun c => c.1.string)

/-! ## Commands -/

def source (s : Sheet) : Source :=
  match Command.given (s.text? "--calldata") with
  | some path => .calldata path
  | none => .proof (s.value "--proof")

def members (s : Sheet) : List (Text × Value) :=
  memberSwitches.filterMap fun (w, name) => (s.find? w.name).map fun v => (name, v)

def order (s : Sheet) : Order :=
  { source := source s
    queryFile := s.text? "--query"
    members := members s
    chain := (s.find? "--chain-id").getD (.int Settings.sepolia)
    circuit := s.value "--circuit-digest"
    verifier := s.text? "--verifier"
    output := s.text? "--output" }

def command (name : Text) (s : Sheet) : Command :=
  if name = "decode-pis" then .decode (source s) (s.text? "--output")
  else if name = "verify-query" then .verify (order s)
  else .encode (s.value "--fields") (s.text? "--output")

/-- A command and the log level asked for. -/
def parse (args : List Text) : Except Refusal (Option Text × Command) := do
  let (before, name, sheet) ← readWithCommand top commands args
  pure (Command.given (before.text? "--log-level"), command name sheet)

/-! ## Runs -/

/-- What a run leaves behind: the status it ended with or the failure that came out, its events,
the level of its log, the working directory and the verifier. -/
structure Ending (σ : Type) where
  status : Option Nat
  failure : Option Failure
  events : List Event
  journal : Journal
  desk : Desk σ

def run [Address.CaseRule] {σ : Type} (s : Settings) (j : Journal) (contract : Contract σ)
    (args : List Text) (desk : Desk σ) : Ending σ :=
  match parse args with
  | .error refusal => ⟨some refusal.status, none, [], j, desk⟩
  | .ok (level, c) =>
    match (match level with
      | some name => j.setLevel (.text name)
      | none => .ok j) with
    | .error e => ⟨none, some e, [], j, desk⟩
    | .ok j =>
      let t := Command.settle (c.run s contract) desk
      match t.outcome with
      | .ok status => ⟨status, none, t.events, j, t.state⟩
      | .error e => ⟨none, some e, t.events, j, t.state⟩

end ProofGate.CommandLine
