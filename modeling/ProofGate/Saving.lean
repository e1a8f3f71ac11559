import ProofGate.Folder
import ProofGate.Json.Writer
import ProofGate.Run

/-!
# Saving

Documents are written into a folder that is made when needed. A document that cannot be written
to its end leaves what was written so far.
-/

namespace ProofGate.Saving

def folderName : Text := "output"

/-- Changes the working directory that a run works in. -/
def change (r : Except Failure Folder) : Run Folder Unit :=
  match r with
  | .ok d => fun _ => ⟨.ok (), [], d⟩
  | .error e => Run.fail e

def current : Run Folder Folder :=
  fun d => ⟨.ok d, [], d⟩

def pathOf (v : Value) : Except Failure Path :=
  match v with
  | .text t => .ok (Path.ofText t)
  | v => .error (.notText v)

/-- Writes a document to a file below a folder, tells where, and gives its path. -/
def save (document file folder : Value) (tell : Bool) : Run Folder Text := do
  let base ← Run.ofExcept (pathOf folder)
  change ((← current).make base)
  let path := base.append (← Run.ofExcept (pathOf file))
  change ((← current).make path.parent)
  let fill ← Run.ofExcept ((← current).openFile path.text)
  match Json.write document with
  | .ok t => change (.ok (fill (Utf8.encode t)))
  | .error (written, bad) => do
    change (.ok (fill (Utf8.encode written)))
    Run.fail (.notWritable bad)
  if tell then Run.print (.line ("[cyan]Data saved to:[/cyan] " ++ path.text))
  pure path.text

end ProofGate.Saving
