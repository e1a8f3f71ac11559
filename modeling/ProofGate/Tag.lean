import ProofGate.Member
import ProofGate.Text.Case

/-!
# Tags

The operation tag of a query says whether it asks for the ids of the tokens that a user holds or
for one aggregate. A tag is given by its number or by its name in any case.
-/

namespace ProofGate

inductive Tag where
  | nft
  | erc20
deriving Repr, DecidableEq

namespace Tag

def all : List Tag :=
  [nft, erc20]

def code : Tag → Nat
  | nft => 67
  | erc20 => 88

def name : Tag → String
  | nft => "NFT"
  | erc20 => "ERC20"

def ofCode? (n : Int) : Option Tag :=
  all.find? fun t => n == Int.ofNat t.code

/-- The tag whose number a value equals; a text equals none. -/
def ofNumber? (v : Value) : Option Tag :=
  v.toInt?.bind ofCode?

/-- The tag whose name a text spells, blanks around and case apart. -/
def ofName? (s : Text) : Option Tag :=
  all.find? fun t => Text.upper (Text.trim s) == Text.ofString t.name

/-- The tag whose number a value stands for. -/
def ofNumber (v : Value) : Except Failure Tag :=
  let bare := match v with
    | .text s => Value.text (Text.trim s)
    | v => v
  match Member.wholeNumber .detected bare with
  | .ok n =>
    match ofCode? n with
    | some t => .ok t
    | none => .error (.unsupportedTag v)
  | .error .infiniteNumber => .error .infiniteNumber
  | .error _ => .error (.unsupportedTag v)

/-- The tag that a value stands for: a name, or else a number. -/
def parse (v : Value) : Except Failure Tag :=
  match v with
  | .text s =>
    match ofName? s with
    | some t => .ok t
    | none => ofNumber v
  | v => ofNumber v

/-- The tag that a caller names, with a wording of the failure that lists the tags. -/
def validate (v : Value) : Except Failure Tag :=
  match parse v with
  | .ok t => .ok t
  | .error e => if e.isA .unsupportedTag then .error (.badTag v) else .error e

end Tag

end ProofGate
