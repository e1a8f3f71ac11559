import ProofGate.Value
import ProofGate.Number.Decimal
import ProofGate.Text.Quoted

/-!
# Values in messages

Two texts of a value: as a literal, with quotes around texts, and bare, where a text stands for
itself.
-/

namespace ProofGate.Value

mutual

/-- The literal of a value. -/
def literal : Value → Text
  | null => "None"
  | bool b => if b then "True" else "False"
  | int n => Numeral.ofInt n
  | float x => x.text
  | text s => Text.quoted s
  | bytes bs => Text.quotedBytes bs
  | list items => "[" ++ Text.join ", " (literals items) ++ "]"
  | object members => "\x7b" ++ Text.join ", " (memberLiterals members) ++ "\x7d"

def literals : List Value → List Text
  | [] => []
  | v :: vs => literal v :: literals vs

def memberLiterals : List (Text × Value) → List Text
  | [] => []
  | (name, v) :: ms => (Text.quoted name ++ ": " ++ literal v) :: memberLiterals ms

end

/-- The bare text of a value. -/
def bare : Value → Text
  | text s => s
  | v => literal v

/-- Several values between round brackets; there is a comma behind a single one. -/
def grouped : List Value → Text
  | [v] => "(" ++ literal v ++ ",)"
  | vs => "(" ++ Text.join ", " (literals vs) ++ ")"

/-- The hexadecimal form of an integer; a truth value counts as zero or one. -/
def hex? (v : Value) : Option Text :=
  v.count?.map fun n => Numeral.hexInt n

end ProofGate.Value
