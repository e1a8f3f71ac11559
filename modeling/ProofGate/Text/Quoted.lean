import ProofGate.Bytes
import ProofGate.Number.Numeral
import ProofGate.Text
import ProofGate.Text.Printable

/-!
# Quoted text

Text and bytes between quotes, as they stand in messages: double quotes only around a text that
holds single quotes and no double ones, a backslash before the quote in use and before itself,
short escapes for the line and tab characters, and code escapes for all that is not printable.
-/

namespace ProofGate.Text

def quoteFor (t : Text) : Char :=
  if t.contains (.char '\'') && !t.contains (.char '"') then '"' else '\''

/-- The escape of a point by its code. -/
def codeEscape (code : Nat) : List Char :=
  if code < 0x100 then '\\' :: 'x' :: Numeral.padded 16 2 code
  else if code < 0x10000 then '\\' :: 'u' :: Numeral.padded 16 4 code
  else '\\' :: 'U' :: Numeral.padded 16 8 code

/-- A character inside quotes, given which characters stand for themselves. -/
def escapeChar (plain : Char → Bool) (quote c : Char) : List Char :=
  if c = quote ∨ c = '\\' then ['\\', c]
  else if c = '\n' then ['\\', 'n']
  else if c = '\r' then ['\\', 'r']
  else if c = '\t' then ['\\', 't']
  else if plain c then [c]
  else codeEscape c.toNat

/-- A point inside quotes; a half never stands for itself. -/
def escapePoint (plain : Char → Bool) (quote : Char) : Point → List Char
  | .char c => escapeChar plain quote c
  | p => codeEscape p.code

def enclose (plain : Char → Bool) (t : Text) : Text :=
  let quote := quoteFor t
  ofChars (quote :: (t.flatMap (escapePoint plain quote) ++ [quote]))

def quoted (t : Text) : Text :=
  enclose isPrintable t

/-- Bytes are written as the characters of their codes, of which only ASCII ones are plain. -/
def quotedBytes (bs : Bytes) : Text :=
  let t : Text := bs.map fun b => .char (Char.ofNat b.toNat)
  .char 'b' :: enclose (fun c => isPrintable c && c.toNat < 0x7F) t

end ProofGate.Text
