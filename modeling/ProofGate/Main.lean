import ProofGate.Command.Line
import ProofGate.Handles

/-!
# The program

Reads the environment and the files that the command line names, runs the command, and shows,
writes and returns what it leaves behind. There is no connection to a node: a command that asks
the verifying contract opens it and is told that it cannot be reached.
-/

namespace ProofGate.Program

/-- Letters of both cases in an address are held against its checksum. -/
instance : Address.CaseRule :=
  .checksum

def unreachable (s : Settings) : Contract (Handles × Unit) :=
  .handled s Resource.atRoot
    fun _ _ => Run.fail (.outside .connection [.text "no connection to a node"])

def contents? (path : String) : IO (Option Bytes) := do
  try
    let data ← IO.FS.readBinFile path
    return some data.toList
  catch _ => return none

/-- The files that a command line names, as far as they can be read. -/
def gather (args : List Text) : IO Folder := do
  let paths := match CommandLine.parse args with
    | .ok (_, c) => c.reads
    | .error _ => []
  let mut folder := Folder.empty
  for path in paths do
    if let some data ← contents? path.string then
      folder := folder.withFile (Path.ofText path) data
  return folder

/-- The path that leads to a spot. -/
def pathOf (s : Spot) : Path :=
  match s.base with
  | .work => ⟨0, s.parts⟩
  | .above levels => ⟨0, List.replicate (levels + 1) (Text.ofString "..") ++ s.parts⟩
  | .root => ⟨1, s.parts⟩

def writeFile (p : Path) (data : Bytes) : IO Unit := do
  IO.FS.createDirAll p.parent.text.string
  IO.FS.writeBinFile p.text.string ⟨data.toArray⟩

/-- Writes the files that are new or changed. -/
def writeChanges (before after : Folder) : IO Unit := do
  for (spot, data) in after.files do
    if before.file? spot != some data then writeFile (pathOf spot) data

/-- Runs a command line and gives the status of the process. -/
def run (args : List String) : IO UInt32 := do
  let values ← (Journal.levelVariable :: Settings.variableNames).mapM fun name => do
    return (name, ← IO.getEnv name)
  let environment (name : String) : Option Text :=
    ((values.lookup name).getD none).map Text.ofString
  let args := args.map Text.ofString
  match Journal.configure ⟨.int 0, 0⟩ (environment Journal.levelVariable) with
  | (.error e, _) =>
    IO.eprintln e.text.string
    return 1
  | (.ok (), journal) =>
    let folder ← gather args
    let settings := Settings.ofEnvironment environment
    let ending := CommandLine.run settings journal (unreachable settings) args
      ⟨folder, Handles.none, ()⟩
    for record in Event.records ending.journal.rank ending.events do
      IO.eprintln record.line.string
    for shown in Event.prints ending.events do
      for line in shown.plain do IO.println line
    writeChanges folder ending.desk.folder
    match ending.failure, ending.status with
    | some e, _ =>
      IO.eprintln e.text.string
      return 1
    | none, none => return 0
    | none, some status =>
      if ending.events.isEmpty then IO.eprintln CommandLine.usage
      return UInt32.ofNat status

end ProofGate.Program

def main (args : List String) : IO UInt32 :=
  ProofGate.Program.run args
