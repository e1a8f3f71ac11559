import ProofGate.Failure

/-!
# Writing JSON

Two blanks of indentation for each level, one item or member a line, and ASCII alone: other
characters are written by their codes, those beyond the first plane as two halves, and a half on
its own by its code. A byte string has no JSON form; writing stops in front of it.
-/

namespace ProofGate.Json

/-- What was written in front of a value without a JSON form, and that value. -/
abbrev Unfinished := Text × Value

def writtenCode (n : Nat) : List Char :=
  '\\' :: 'u' :: Numeral.padded 16 4 n

def writtenChar (c : Char) : List Char :=
  if c = '"' ∨ c = '\\' then ['\\', c]
  else if c = '\n' then ['\\', 'n']
  else if c = '\r' then ['\\', 'r']
  else if c = '\t' then ['\\', 't']
  else if c = '\x08' then ['\\', 'b']
  else if c = '\x0c' then ['\\', 'f']
  else if 0x20 ≤ c.toNat ∧ c.toNat < 0x7F then [c]
  else if c.toNat < 0x10000 then writtenCode c.toNat
  else
    let n := c.toNat - 0x10000
    writtenCode (0xD800 + n / 0x400) ++ writtenCode (0xDC00 + n % 0x400)

def writtenPoint : Point → List Char
  | .char c => writtenChar c
  | p => writtenCode p.code

def writtenText (t : Text) : Text :=
  Text.ofChars ('"' :: (t.flatMap writtenPoint ++ ['"']))

def writtenDouble : Double → Text
  | .nan => "NaN"
  | .infinite s => if s then "-Infinity" else "Infinity"
  | x => x.text

/-- A new line indented to a level. -/
def newline (level : Nat) : Text :=
  Text.ofChars ('\n' :: List.replicate (2 * level) ' ')

mutual

/-- The text of a value that stands at a level of indentation. -/
def writeAt (level : Nat) : Value → Except Unfinished Text
  | .null => .ok "null"
  | .bool b => .ok (if b then "true" else "false")
  | .int n => .ok (Numeral.ofInt n)
  | .float x => .ok (writtenDouble x)
  | .text s => .ok (writtenText s)
  | .bytes bs => .error ([], .bytes bs)
  | .list [] => .ok "[]"
  | .list (v :: vs) => writeItems level ("[" ++ newline (level + 1)) (v :: vs)
  | .object [] => .ok "\x7b\x7d"
  | .object (m :: ms) => writeMembers level ("\x7b" ++ newline (level + 1)) (m :: ms)

/-- Items, each behind what separates it from the text before, then the closing bracket. -/
def writeItems (level : Nat) (lead : Text) : List Value → Except Unfinished Text
  | [] => .ok (newline level ++ "]")
  | v :: vs =>
    match writeAt (level + 1) v with
    | .error (done, bad) => .error (lead ++ done, bad)
    | .ok s =>
      match writeItems level ("," ++ newline (level + 1)) vs with
      | .error (done, bad) => .error (lead ++ s ++ done, bad)
      | .ok t => .ok (lead ++ s ++ t)

/-- Members, each behind what separates it from the text before, then the closing brace. -/
def writeMembers (level : Nat) (lead : Text) :
    List (Text × Value) → Except Unfinished Text
  | [] => .ok (newline level ++ "\x7d")
  | (name, v) :: ms =>
    let head := lead ++ writtenText name ++ ": "
    match writeAt (level + 1) v with
    | .error (done, bad) => .error (head ++ done, bad)
    | .ok s =>
      match writeMembers level ("," ++ newline (level + 1)) ms with
      | .error (done, bad) => .error (head ++ s ++ done, bad)
      | .ok t => .ok (head ++ s ++ t)

end

def write (v : Value) : Except Unfinished Text :=
  writeAt 0 v

end ProofGate.Json
