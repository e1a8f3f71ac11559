/-!
# Text

A text is a list of points: characters, and halves of the pairs by which text in sixteen-bit
units writes a character beyond the first plane. A half on its own is no character; a text that
was read from code escapes may hold one all the same.
-/

namespace ProofGate

/-- A character, or a half by its distance from the first half. -/
inductive Point where
  | char (c : Char)
  | half (low : Fin 0x800)
deriving Repr, DecidableEq

namespace Point

/-- The code of the first half. -/
def firstHalf : Nat := 0xD800

def code : Point → Nat
  | char c => c.toNat
  | half low => firstHalf + low.val

def ofCode (n : Nat) : Point :=
  if h : firstHalf ≤ n ∧ n < firstHalf + 0x800 then half ⟨n - firstHalf, by omega⟩
  else char (Char.ofNat n)

/-- The character of a point; a half counts as the replacement character. -/
def toChar : Point → Char
  | char c => c
  | half _ => '\uFFFD'

/-- Whether a point is a character of a class; a half belongs to none. -/
def isIn (p : Char → Bool) : Point → Bool
  | char c => p c
  | half _ => false

end Point

abbrev Text := List Point

namespace Text

def ofChars (cs : List Char) : Text :=
  cs.map Point.char

def ofString (s : String) : Text :=
  ofChars s.toList

/-- The characters of the points, for readers that take no half. -/
def chars (t : Text) : List Char :=
  t.map Point.toChar

/-- The text as a string of characters. -/
def string (t : Text) : String :=
  String.ofList t.chars

/-- Texts one after the other with another one between them. -/
def join (separator : Text) (ts : List Text) : Text :=
  separator.intercalate ts

/-- The pieces of a text between the places where a point stands. -/
def split (separator : Point) : Text → List Text
  | [] => [[]]
  | p :: ps =>
    if p = separator then [] :: split separator ps
    else
      match split separator ps with
      | [] => [[p]]
      | piece :: pieces => (p :: piece) :: pieces

/-- The order of texts by the codes of their points. -/
def le : Text → Text → Bool
  | [], _ => true
  | _ :: _, [] => false
  | p :: ps, q :: qs => p.code < q.code || (p.code == q.code && le ps qs)

end Text

instance : Coe String Text := ⟨Text.ofString⟩

end ProofGate
