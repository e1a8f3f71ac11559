import ProofGate.Text
import ProofGate.Text.Ranges

/-!
# Blank characters

The characters that trimming removes: the control characters that separate words, lines or
records, and the spaces of the other scripts. The zero width space and the byte order mark
are not blank.
-/

namespace ProofGate.Text

/-- Blanks above the control characters and the space. -/
def wideBlanks : Ranges :=
  [(0x85, 0x85), (0xA0, 0xA0), (0x1680, 0x1680), (0x2000, 0x200A), (0x2028, 0x2029),
    (0x202F, 0x202F), (0x205F, 0x205F), (0x3000, 0x3000)]

def isBlank (c : Char) : Bool :=
  Ranges.has ([(0x09, 0x0D), (0x1C, 0x20)] ++ wideBlanks) c

/-- Blanks allowed around a numeral: those of the text, less the four separators `1C` to `1F`. -/
def isNumeralBlank (c : Char) : Bool :=
  Ranges.has ([(0x09, 0x0D), (0x20, 0x20)] ++ wideBlanks) c

/-- Removes the items of a class at both ends. -/
def trimEnds {α : Type} (p : α → Bool) (xs : List α) : List α :=
  ((xs.dropWhile p).reverse.dropWhile p).reverse

def trim (t : Text) : Text :=
  trimEnds (Point.isIn isBlank) t

end ProofGate.Text
