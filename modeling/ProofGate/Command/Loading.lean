import ProofGate.Calldata
import ProofGate.Folder
import ProofGate.Settings

/-!
# Loading

Bundles, captured calls and queries from files of the working directory.
-/

namespace ProofGate.Loading

def json (d : Folder) (path : Text) : Except Failure Value := do
  Json.read (← d.readText path)

/-- A bundle from a description in JSON, by the ending of its path, or from its bytes. -/
def bundle (d : Folder) (path : Text) : Except Failure Bundle := do
  let p := Path.ofText path
  if p.suffix = ".json" then Bundle.ofValue (← json d p.text)
  else Bundle.ofBytes (← d.readBytes p.text)

def jsonEnding : Text := ".json"

/-- The call data in a file: its text, or the member of that name in a JSON document. -/
def calldataText (d : Folder) (path : Text) : Except Failure Value := do
  if jsonEnding.isSuffixOf path then
    match ← json d path with
    | .object ms =>
      let found := (Value.find? ms "calldata").getD .null
      if found.isPresent then pure found else throw (.calldataMissing path)
    | v => throw (.noOperation v "get")
  else
    let text ← d.readText path
    pure (.text (Text.trim text))

def calldata (d : Folder) (path : Text) : Except Failure (Bundle × Query) := do
  Calldata.ofValue (← calldataText d path)

/-! ## Queries -/

/-- The name and value that an element of a list of pairs holds. -/
def pairOf (index : Nat) (v : Value) : Except Failure (Value × Value) :=
  match Member.elements v with
  | .error _ => .error (.pairForm index)
  | .ok [name, value] => if name.canBeKey then .ok (name, value) else .error (.notKey name)
  | .ok parts => .error (.pairSize index parts.length)

def putPairs (ms : List (Text × Value)) (index : Nat) :
    List Value → Except Failure (List (Text × Value))
  | [] => .ok ms
  | v :: vs => do
    let (name, value) ← pairOf index v
    let ms := match name with
      | .text s => Value.put ms s value
      | _ => ms
    putPairs ms (index + 1) vs

/-- Members overwritten by those of an object, or by a list of pairs. -/
def overlay (ms : List (Text × Value)) (v : Value) : Except Failure (List (Text × Value)) :=
  match v with
  | .object news => .ok (news.foldl (fun ms m => Value.put ms m.1 m.2) ms)
  | v => do putPairs ms 0 (← Member.elements v)

def addressNames : List Text :=
  ["contract_address", "user_address", "client_address"]

/-- Puts the addresses that are there into checksum form. -/
def checkAddresses [Address.CaseRule] (ms : List (Text × Value)) :
    List Text → Except Failure (List (Text × Value))
  | [] => .ok ms
  | name :: names =>
    match Value.find? ms name with
    | none => checkAddresses ms names
    | some v => do
      let a ← Address.validate name v
      checkAddresses (Value.put ms name (.text a.checksum)) names

/-- Puts the number of the tag in place of whatever names it. -/
def checkTag (ms : List (Text × Value)) : Except Failure (List (Text × Value)) :=
  match Value.find? ms "identifier" with
  | none => .ok ms
  | some v => do
    let t ← Tag.validate (.text v.bare)
    pure (Value.put ms "identifier" (.int t.code))

/-- The query of a command: captured members, overwritten by those of a file, overwritten by
those given as options. -/
def query [Address.CaseRule] (d : Folder) (captured : List (Text × Value)) (file : Option Text)
    (given : List (Text × Value)) : Except Failure Query := do
  let ms ← match file with
    | some path => if path.isEmpty then pure captured else do overlay captured (← json d path)
    | none => pure captured
  let ms := given.foldl (fun ms m => Value.put ms m.1 m.2) ms
  let ms ← checkAddresses ms addressNames
  let ms ← checkTag ms
  Query.ofMembers ms

end ProofGate.Loading
