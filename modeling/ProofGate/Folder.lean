import ProofGate.Path

/-!
# The working directory

Files and folders by their spots: the working directory, a number of levels above it or the root,
and the parts of the path from there on. Of what lies outside the working directory nothing is
known but the usual folders of the root, the null device, and what was made there.
-/

namespace ProofGate

/-- Where the parts of a spot begin: `above n` is `n + 1` levels above the working directory. -/
inductive Base where
  | work
  | above (levels : Nat)
  | root
deriving Repr, DecidableEq

structure Spot where
  base : Base
  parts : List Text
deriving Repr, DecidableEq

namespace Spot

/-- The working directory. -/
def work : Spot :=
  ⟨.work, []⟩

def below (s : Spot) (part : Text) : Spot :=
  ⟨s.base, s.parts ++ [part]⟩

/-- One level further up; nothing is above the root. -/
def up (s : Spot) : Spot :=
  if s.parts.isEmpty then
    match s.base with
    | .work => ⟨.above 0, []⟩
    | .above n => ⟨.above (n + 1), []⟩
    | .root => s
  else ⟨s.base, s.parts.dropLast⟩

/-- Whether a spot lies below another one. -/
def isBelow (s t : Spot) : Bool :=
  s.base = t.base && t.parts.isPrefixOf s.parts && t.parts.length < s.parts.length

end Spot

structure Folder where
  files : List (Spot × Bytes)
  folders : List Spot
deriving Repr

namespace Folder

/-- The usual folders of the root. -/
def rootFolders : List Text :=
  ["bin", "boot", "dev", "etc", "home", "lib", "media", "mnt", "opt", "proc", "root", "run",
    "sbin", "srv", "sys", "tmp", "usr", "var"]

/-- A file that is always empty. -/
def nullDevice : Spot :=
  ⟨.root, ["dev", "null"]⟩

def empty : Folder :=
  ⟨[(nullDevice, [])], rootFolders.map fun part => ⟨.root, [part]⟩⟩

def file? (d : Folder) (s : Spot) : Option Bytes :=
  d.files.lookup s

/-- Whether a spot is a folder: a base, one that was made, or one with files. -/
def isFolder (d : Folder) (s : Spot) : Bool :=
  s.parts.isEmpty || d.folders.contains s || d.files.any fun f => f.1.isBelow s

/-! ## Finding -/

inductive Obstacle where
  | missing
  | notFolder
  | tooLong
deriving Repr, DecidableEq

def Obstacle.failure (path : Text) : Obstacle → Failure
  | missing => .fileMissing path
  | notFolder => .notDirectory path
  | tooLong => .nameTooLong path

/-- Follows parts from a spot on. Whatever another part follows has to be a folder. -/
def follow (d : Folder) (here : Spot) : List Text → Except Obstacle Spot
  | [] => .ok here
  | p :: ps =>
    if d.isFolder here then
      if p = "." then follow d here ps
      else if p = ".." then follow d here.up ps
      else if Path.partLimit < (Path.nameBytes p).length then .error .tooLong
      else follow d (here.below p) ps
    else if (d.file? here).isSome then .error .notFolder
    else .error .missing

/-- The parts of a path as they are written, empty ones left out. A slash at the end asks for a
folder like a dot behind it. -/
def writtenParts (path : Text) : List Text :=
  let parts := (path.split Path.slash).filter fun p => p != []
  if path.getLast? = some Path.slash then parts.concat "." else parts

/-- The spot that a path leads to, whether or not there is something. -/
def find (d : Folder) (path : Text) : Except Failure Spot :=
  match Path.nameFault? path with
  | some fault => .error (.badName fault)
  | none =>
    if path.isEmpty then .error (.fileMissing path)
    else if Path.pathLimit ≤ (Path.nameBytes path).length then .error (.nameTooLong path)
    else
      let start : Spot := if path.head? = some Path.slash then ⟨.root, []⟩ else .work
      match d.follow start (writtenParts path) with
      | .ok s => .ok s
      | .error o => .error (o.failure path)

/-! ## Reading -/

/-- The bytes of the file at a path. -/
def readBytes (d : Folder) (path : Text) : Except Failure Bytes := do
  let s ← d.find path
  match d.file? s with
  | some data => pure data
  | none => throw (if d.isFolder s then .isDirectory path else .fileMissing path)

/-- Lines end in one way only. -/
def unifyLines : Text → Text
  | .char '\r' :: .char '\n' :: ps => .char '\n' :: unifyLines ps
  | .char '\r' :: ps => .char '\n' :: unifyLines ps
  | p :: ps => p :: unifyLines ps
  | [] => []

def textOf (data : Bytes) : Except Failure Text :=
  match Utf8.decode data with
  | .ok t => .ok (unifyLines t)
  | .error fault => .error (.badUtf8 fault)

/-- The text of the file at a path. -/
def readText (d : Folder) (path : Text) : Except Failure Text := do
  textOf (← d.readBytes path)

/-! ## Writing -/

/-- Makes one folder. -/
def makeOne (d : Folder) (path : Text) : Except Failure Folder := do
  let s ← d.find path
  if d.isFolder s || (d.file? s).isSome then throw (.fileExists path)
  pure { d with folders := d.folders ++ [s] }

def leadsToFolder (d : Folder) (path : Text) : Bool :=
  match d.find path with
  | .ok s => d.isFolder s
  | .error _ => false

/-- Makes one folder unless there is one. -/
def ensureOne (d : Folder) (path : Text) : Except Failure Folder :=
  match d.makeOne path with
  | .ok d => .ok d
  | .error e =>
    if e.kind = .fileMissing then .error e
    else if d.leadsToFolder path then .ok d
    else .error e

/-- Makes a folder and those above it, as far as they are missing. The number bounds how far. -/
def ensure (d : Folder) (p : Path) : Nat → Except Failure Folder
  | 0 => d.ensureOne p.text
  | above + 1 =>
    match d.ensureOne p.text with
    | .ok d => .ok d
    | .error e =>
      if e.kind = .fileMissing then
        match ensure d p.parent above with
        | .ok d => d.ensureOne p.text
        | .error e => .error e
      else .error e

def make (d : Folder) (p : Path) : Except Failure Folder :=
  d.ensure p p.parts.length

/-- Sets the contents of a file, which may be a new one. -/
def store (d : Folder) (s : Spot) (data : Bytes) : Folder :=
  { d with files := d.files.filter (fun f => f.1 != s) ++ [(s, data)] }

/-- Opens a file for writing, which empties it; gives the way to fill it. -/
def openFile (d : Folder) (path : Text) : Except Failure (Bytes → Folder) := do
  let s ← d.find path
  if d.isFolder s then throw (.isDirectory path)
  pure (d.store s)

/-! ## Contents from elsewhere -/

/-- The spots passed on the way along parts, the last one included. -/
def passed (here : Spot) : List Text → List Spot
  | [] => []
  | p :: ps =>
    let next := if p = ".." then here.up else here.below p
    next :: passed next ps

/-- The same with a file that is there already, and with the folders that lead to it. -/
def withFile (d : Folder) (p : Path) (data : Bytes) : Folder :=
  let spots := passed (if p.absolute then ⟨.root, []⟩ else .work) p.parts
  match spots.getLast? with
  | none => d
  | some s => { d with folders := d.folders ++ spots.dropLast }.store s data

/-- The files below the working directory by the parts of their paths. -/
def ownFiles (d : Folder) : List (List Text × Bytes) :=
  d.files.filterMap fun f => if f.1.base = .work then some (f.1.parts, f.2) else none

end Folder

end ProofGate
