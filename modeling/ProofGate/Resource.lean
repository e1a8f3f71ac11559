import ProofGate.Json.Reader
import ProofGate.Path

/-!
# Resources

The files that come with the library, in folders by kind. A lookup never leaves its folder, nor
a folder the resources. Contract interfaces are kept once they are loaded.
-/

namespace ProofGate.Resource

/-- Where the library is installed, and the documents there are, in the resources and anywhere else,
each under the parts of its path from the root on. -/
structure Installation where
  home : List Text
  documents : List (List Text × Value)
  named : ∀ part ∈ home, Path.isName part = true

/-- The folders of the resources in the folder where the library is installed. -/
def package : List Text :=
  ["lpn_query_toolkit", "resources"]

namespace Installation

def root (i : Installation) : List Text :=
  i.home ++ package

/-- The folder of the interfaces. -/
def interfaces (i : Installation) : List Text :=
  i.root.concat "abi"

end Installation

/-- How the place of the resources is written in texts. -/
def mark : Text := "<resources>"

/-- The text of a path below the resources. -/
def shown (i : Installation) (path : List Text) : Text :=
  Text.join [Path.slash] (mark :: path.drop i.root.length)

/-- Refuses parts that cannot name a file; double dots are not looked at. -/
def checkNames : List Text → Except Failure Unit
  | [] => .ok ()
  | p :: ps =>
    match Path.nameFault? p with
    | some fault => .error (.badName fault)
    | none => checkNames ps

/-- The path of a file in a folder of the resources. -/
def locate (i : Installation) (folder file : Text) : Except Failure (List Text) := do
  let folderPath := Path.ofText folder
  let filePath := Path.ofText file
  checkNames folderPath.parts
  checkNames filePath.parts
  let inner := folderPath.resolve i.root
  let path := filePath.resolve inner
  if i.root.isPrefixOf inner && inner.isPrefixOf path then pure path
  else throw (.outsideResources folder file)

/-! ## Interfaces -/

def noArguments (name : String) : Value :=
  .object [("inputs", .list []), ("name", .text name), ("type", .text "error")]

def array (name type : String) : Value :=
  .object [("internalType", .text type), ("name", .text name), ("type", .text type)]

/-- The interface of the verifying contract: two errors and one function. -/
def verifierInterface : Value :=
  .list [
    noArguments "ProofInvalid",
    noArguments "PublicInputNotInField",
    .object [
      ("inputs", .list [array "proof" "uint256[8]", array "input" "uint256[3]"]),
      ("name", .text "verifyProof"),
      ("outputs", .list []),
      ("stateMutability", .text "view"),
      ("type", .text "function")]]

/-- The library as it comes, with the one interface. -/
def packaged (home : List Text) (named : ∀ part ∈ home, Path.isName part = true) : Installation :=
  { home
    documents := [(((home ++ package).concat "abi").concat "groth16_verifier.json", verifierInterface)]
    named }

/-- The library as it comes, right below the root. -/
def atRoot : Installation :=
  packaged [] nofun

/-- Whether a path is a folder: that of the interfaces, or one above a document. -/
def isFolder (i : Installation) (path : List Text) : Bool :=
  path == i.interfaces
    || i.documents.any fun d => path.isPrefixOf d.1 && path.length < d.1.length

/-- Whether one of the parts that follow a place is too long to be looked up. This shows as far as
the parts before it are folders. -/
def hasLongPart (i : Installation) (here : List Text) : List Text → Bool
  | [] => false
  | p :: ps =>
    isFolder i here
      && (Path.partLimit < (Path.nameBytes p).length || hasLongPart i (here ++ [p]) ps)

/-- Whether the path of an interface is too long to be looked up. -/
def isTooLong (i : Installation) (path : List Text) : Bool :=
  Path.pathLimit ≤ (Path.nameBytes (Path.text ⟨1, path⟩)).length
    || hasLongPart i i.interfaces (path.drop i.interfaces.length)

/-- The interfaces loaded so far, by key. -/
abbrev Cache := List (Text × Value)

def key (name : Value) : Text :=
  "abi:" ++ name.bare

/-- Opens the file of an interface. -/
def openInterface (i : Installation) (path : List Text) : Except Failure Value :=
  if isTooLong i path then .error (.nameTooLong (shown i path))
  else
    match i.documents.lookup path with
    | some v => .ok v
    | none =>
      .error (if isFolder i path then .isDirectory (shown i path) else .resourceMissing (shown i path))

def readInterface (i : Installation) (name : Value) : Except Failure Value := do
  let path ← locate i "abi" (name.bare ++ ".json")
  openInterface i path

/-- The interface of a name, and the cache with it. -/
def interface (i : Installation) (cache : Cache) (name : Value) : Except Failure (Value × Cache) :=
  match cache.lookup (key name) with
  | some v => .ok (v, cache)
  | none => (readInterface i name).map fun v => (v, cache ++ [(key name, v)])

end ProofGate.Resource
