import ProofGate.Failure

/-!
# Paths

A path as its parts: empty parts and single dots are left out, double dots are kept. A path that
begins with a slash starts from the root and replaces whatever stands before it. Two slashes at
the beginning are told apart from one, and more than two are not.
-/

namespace ProofGate

structure Path where
  /-- The slashes it begins with: none, one or two. -/
  slashes : Nat
  parts : List Text
deriving Repr, DecidableEq

namespace Path

def slash : Point := .char '/'

def ofText (t : Text) : Path :=
  let slashes := (t.takeWhile (· == slash)).length
  ⟨if slashes ≤ 2 then slashes else 1, (t.split slash).filter fun p => p != [] && p != "."⟩

/-- Whether it starts from the root. -/
def absolute (p : Path) : Bool :=
  p.slashes != 0

def text (p : Path) : Text :=
  if p.parts.isEmpty && !p.absolute then "."
  else List.replicate p.slashes slash ++ Text.join [slash] p.parts

def append (p q : Path) : Path :=
  if q.absolute then q else ⟨p.slashes, p.parts ++ q.parts⟩

def parent (p : Path) : Path :=
  ⟨p.slashes, p.parts.dropLast⟩

/-- The ending of the last part from its last point on, unless the point begins or ends it. -/
def suffix (p : Path) : Text :=
  let name := p.parts.getLastD []
  let ending := name.reverse.takeWhile (· != .char '.')
  if ending.length + 1 < name.length ∧ ending ≠ [] then .char '.' :: ending.reverse else []

/-! ## Climbing -/

/-- Whether a part names something in the folder where it stands. -/
def isName (part : Text) : Bool :=
  part != [] && part != "." && part != ".." && !part.contains slash

/-- The parts from a place on without double dots: each takes away the part before it, and nothing
where there is none, for the root is its own parent. -/
def climb (here : List Text) : List Text → List Text
  | [] => here
  | p :: ps => climb (if p = ".." then here.dropLast else here ++ [p]) ps

/-- The parts, from the root on, of a path that is followed from a place given by its own. -/
def resolve (start : List Text) (p : Path) : List Text :=
  climb (if p.absolute then [] else start) p.parts

/-! ## Names of files -/

/-- Whether a half stands for a byte that is no text: those from the 128th on of the low ones. -/
def isByte (low : Fin 0x800) : Bool :=
  0x480 ≤ low.val && low.val < 0x500

/-- The first halves of a text, of which the points from a position on are left, that stand for no
byte. -/
def badHalves? (position : Nat) : Text → Option NameFault
  | [] => none
  | .char _ :: rest => badHalves? (position + 1) rest
  | .half low :: rest =>
    if isByte low then badHalves? (position + 1) rest
    else
      let isHalf (p : Point) : Bool := match p with
        | .half _ => true
        | .char _ => false
      some (.halves (.half low) position (position + 1 + (rest.takeWhile isHalf).length))

/-- Why a text cannot name a file. -/
def nameFault? (t : Text) : Option NameFault :=
  match badHalves? 0 t with
  | some fault => some fault
  | none => if t.contains (.char '\x00') then some .zero else none

/-- The bytes of a name, a half for each byte that is no text. -/
def nameBytes (t : Text) : Bytes :=
  t.flatMap fun
    | .half low => [UInt8.ofNat (low.val % 256)]
    | p => Utf8.encodePoint p

/-- The most bytes that one part of a path has. -/
def partLimit : Nat := 255

/-- More bytes than a path has. -/
def pathLimit : Nat := 4096

end Path

end ProofGate
