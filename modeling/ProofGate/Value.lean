import ProofGate.Bytes
import ProofGate.Number.Double
import ProofGate.Text

/-!
# Values

What callers hand over before it is checked: JSON values, in which integers and doubles are
apart and members keep their order, and byte strings.
-/

namespace ProofGate

inductive Value where
  | null
  | bool (b : Bool)
  | int (n : Int)
  | float (x : Double)
  | text (s : Text)
  | bytes (bs : Bytes)
  | list (items : List Value)
  | object (members : List (Text × Value))
deriving Repr

namespace Value

/-- The name of a value's type in messages. -/
def typeName : Value → String
  | null => "NoneType"
  | bool _ => "bool"
  | int _ => "int"
  | float _ => "float"
  | text _ => "str"
  | bytes _ => "bytes"
  | list _ => "list"
  | object _ => "dict"

/-- Neither absent, zero nor empty. -/
def isPresent : Value → Bool
  | null => false
  | bool b => b
  | int n => n != 0
  | float x => !x.isZero
  | text s => !s.isEmpty
  | bytes bs => !bs.isEmpty
  | list items => !items.isEmpty
  | object members => !members.isEmpty

def text? : Value → Option Text
  | text t => some t
  | _ => none

/-! ## Numbers -/

/-- The integer that a value is; a truth value counts as zero or one. -/
def count? : Value → Option Int
  | bool b => some (if b then 1 else 0)
  | int n => some n
  | _ => none

/-- The integer that a number equals. -/
def toInt? : Value → Option Int
  | float x => x.toInt?
  | v => v.count?

/-- The exact number that a value is, if it is one. -/
def number? : Value → Option Double
  | float x => some x
  | v => v.count?.map Double.exact

/-! ## Equality -/

/-- Equality of the values that can be keys: numbers by what they count, all else by kind. -/
def sameKey : Value → Value → Bool
  | null, null => true
  | text s, text t => s == t
  | bytes a, bytes b => a == b
  | float x, float y => x.same y
  | a, b =>
    match a.toInt?, b.toInt? with
    | some m, some n => m == n
    | _, _ => false

/-- A list or an object cannot be a key. -/
def canBeKey : Value → Bool
  | list _ => false
  | object _ => false
  | _ => true

/-! ## Members -/

/-- The member of a name in an ordered object. -/
def find? (members : List (Text × Value)) (name : Text) : Option Value :=
  members.lookup name

/-- Sets a member: in place if the name is known, else at the end. -/
def put (members : List (Text × Value)) (name : Text) (v : Value) : List (Text × Value) :=
  if members.any (·.1 == name) then
    members.map fun m => if m.1 == name then (name, v) else m
  else members ++ [(name, v)]

end Value

end ProofGate
