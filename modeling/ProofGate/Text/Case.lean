import ProofGate.Text
import ProofGate.Text.Cased

/-!
# Letter case

The small letter of every capital, as runs of capitals at equal distances whose small letters
stand equally far away, with the sigma at the end of a word told apart; and capitals as far as
they can make or unmake ASCII words: besides the ASCII letters, those letters of other scripts
whose upper case is written in ASCII.
-/

namespace ProofGate.Text

/-! ## Capitals -/

def upperChar (c : Char) : List Char :=
  match c with
  | 'ı' => ['I']
  | 'ſ' => ['S']
  | 'ß' => ['S', 'S']
  | 'ﬀ' => ['F', 'F']
  | 'ﬁ' => ['F', 'I']
  | 'ﬂ' => ['F', 'L']
  | 'ﬃ' => ['F', 'F', 'I']
  | 'ﬄ' => ['F', 'F', 'L']
  | 'ﬅ' => ['S', 'T']
  | 'ﬆ' => ['S', 'T']
  | c => [c.toUpper]

def upper (t : Text) : Text :=
  t.flatMap fun
    | .char c => ofChars (upperChar c)
    | p => [p]

/-! ## Small letters -/

/-- Runs of capitals: the first, the last, the distance between neighbours, and how far each is
from its small letter. -/
def capitalRuns : List (Nat × Nat × Nat × Int) :=
  [(0x41, 0x5A, 1, 32), (0xC0, 0xD6, 1, 32), (0xD8, 0xDE, 1, 32), (0x100, 0x12E, 2, 1),
    (0x132, 0x136, 2, 1), (0x139, 0x147, 2, 1), (0x14A, 0x176, 2, 1), (0x178, 0x178, 2, -121),
    (0x179, 0x17D, 2, 1), (0x181, 0x181, 2, 210), (0x182, 0x184, 2, 1), (0x186, 0x186, 2, 206),
    (0x187, 0x187, 2, 1), (0x189, 0x18A, 1, 205), (0x18B, 0x18B, 2, 1), (0x18E, 0x18E, 2, 79),
    (0x18F, 0x18F, 2, 202), (0x190, 0x190, 2, 203), (0x191, 0x191, 2, 1), (0x193, 0x193, 2, 205),
    (0x194, 0x194, 2, 207), (0x196, 0x196, 2, 211), (0x197, 0x197, 2, 209), (0x198, 0x198, 2, 1),
    (0x19C, 0x19C, 2, 211), (0x19D, 0x19D, 2, 213), (0x19F, 0x19F, 2, 214), (0x1A0, 0x1A4, 2, 1),
    (0x1A6, 0x1A6, 2, 218), (0x1A7, 0x1A7, 2, 1), (0x1A9, 0x1A9, 2, 218), (0x1AC, 0x1AC, 2, 1),
    (0x1AE, 0x1AE, 2, 218), (0x1AF, 0x1AF, 2, 1), (0x1B1, 0x1B2, 1, 217), (0x1B3, 0x1B5, 2, 1),
    (0x1B7, 0x1B7, 2, 219), (0x1B8, 0x1B8, 2, 1), (0x1BC, 0x1BC, 2, 1), (0x1C4, 0x1C4, 2, 2),
    (0x1C5, 0x1C5, 2, 1), (0x1C7, 0x1C7, 2, 2), (0x1C8, 0x1C8, 2, 1), (0x1CA, 0x1CA, 2, 2),
    (0x1CB, 0x1DB, 2, 1), (0x1DE, 0x1EE, 2, 1), (0x1F1, 0x1F1, 2, 2), (0x1F2, 0x1F4, 2, 1),
    (0x1F6, 0x1F6, 2, -97), (0x1F7, 0x1F7, 2, -56), (0x1F8, 0x21E, 2, 1), (0x220, 0x220, 2, -130),
    (0x222, 0x232, 2, 1), (0x23A, 0x23A, 2, 10795), (0x23B, 0x23B, 2, 1), (0x23D, 0x23D, 2, -163),
    (0x23E, 0x23E, 2, 10792), (0x241, 0x241, 2, 1), (0x243, 0x243, 2, -195), (0x244, 0x244, 2, 69),
    (0x245, 0x245, 2, 71), (0x246, 0x24E, 2, 1), (0x370, 0x372, 2, 1), (0x376, 0x376, 2, 1),
    (0x37F, 0x37F, 2, 116), (0x386, 0x386, 2, 38), (0x388, 0x38A, 1, 37), (0x38C, 0x38C, 2, 64),
    (0x38E, 0x38F, 1, 63), (0x391, 0x3A1, 1, 32), (0x3A3, 0x3AB, 1, 32), (0x3CF, 0x3CF, 2, 8),
    (0x3D8, 0x3EE, 2, 1), (0x3F4, 0x3F4, 2, -60), (0x3F7, 0x3F7, 2, 1), (0x3F9, 0x3F9, 2, -7),
    (0x3FA, 0x3FA, 2, 1), (0x3FD, 0x3FF, 1, -130), (0x400, 0x40F, 1, 80), (0x410, 0x42F, 1, 32),
    (0x460, 0x480, 2, 1), (0x48A, 0x4BE, 2, 1), (0x4C0, 0x4C0, 2, 15), (0x4C1, 0x4CD, 2, 1),
    (0x4D0, 0x52E, 2, 1), (0x531, 0x556, 1, 48), (0x10A0, 0x10C5, 1, 7264),
    (0x10C7, 0x10C7, 2, 7264), (0x10CD, 0x10CD, 2, 7264), (0x13A0, 0x13EF, 1, 38864),
    (0x13F0, 0x13F5, 1, 8), (0x1C90, 0x1CBA, 1, -3008), (0x1CBD, 0x1CBF, 1, -3008),
    (0x1E00, 0x1E94, 2, 1), (0x1E9E, 0x1E9E, 2, -7615), (0x1EA0, 0x1EFE, 2, 1),
    (0x1F08, 0x1F0F, 1, -8), (0x1F18, 0x1F1D, 1, -8), (0x1F28, 0x1F2F, 1, -8),
    (0x1F38, 0x1F3F, 1, -8), (0x1F48, 0x1F4D, 1, -8), (0x1F59, 0x1F5F, 2, -8),
    (0x1F68, 0x1F6F, 1, -8), (0x1F88, 0x1F8F, 1, -8), (0x1F98, 0x1F9F, 1, -8),
    (0x1FA8, 0x1FAF, 1, -8), (0x1FB8, 0x1FB9, 1, -8), (0x1FBA, 0x1FBB, 1, -74),
    (0x1FBC, 0x1FBC, 2, -9), (0x1FC8, 0x1FCB, 1, -86), (0x1FCC, 0x1FCC, 2, -9),
    (0x1FD8, 0x1FD9, 1, -8), (0x1FDA, 0x1FDB, 1, -100), (0x1FE8, 0x1FE9, 1, -8),
    (0x1FEA, 0x1FEB, 1, -112), (0x1FEC, 0x1FEC, 2, -7), (0x1FF8, 0x1FF9, 1, -128),
    (0x1FFA, 0x1FFB, 1, -126), (0x1FFC, 0x1FFC, 2, -9), (0x2126, 0x2126, 2, -7517),
    (0x212A, 0x212A, 2, -8383), (0x212B, 0x212B, 2, -8262), (0x2132, 0x2132, 2, 28),
    (0x2160, 0x216F, 1, 16), (0x2183, 0x2183, 2, 1), (0x24B6, 0x24CF, 1, 26),
    (0x2C00, 0x2C2F, 1, 48), (0x2C60, 0x2C60, 2, 1), (0x2C62, 0x2C62, 2, -10743),
    (0x2C63, 0x2C63, 2, -3814), (0x2C64, 0x2C64, 2, -10727), (0x2C67, 0x2C6B, 2, 1),
    (0x2C6D, 0x2C6D, 2, -10780), (0x2C6E, 0x2C6E, 2, -10749), (0x2C6F, 0x2C6F, 2, -10783),
    (0x2C70, 0x2C70, 2, -10782), (0x2C72, 0x2C72, 2, 1), (0x2C75, 0x2C75, 2, 1),
    (0x2C7E, 0x2C7F, 1, -10815), (0x2C80, 0x2CE2, 2, 1), (0x2CEB, 0x2CED, 2, 1),
    (0x2CF2, 0x2CF2, 2, 1), (0xA640, 0xA66C, 2, 1), (0xA680, 0xA69A, 2, 1), (0xA722, 0xA72E, 2, 1),
    (0xA732, 0xA76E, 2, 1), (0xA779, 0xA77B, 2, 1), (0xA77D, 0xA77D, 2, -35332),
    (0xA77E, 0xA786, 2, 1), (0xA78B, 0xA78B, 2, 1), (0xA78D, 0xA78D, 2, -42280),
    (0xA790, 0xA792, 2, 1), (0xA796, 0xA7A8, 2, 1), (0xA7AA, 0xA7AA, 2, -42308),
    (0xA7AB, 0xA7AB, 2, -42319), (0xA7AC, 0xA7AC, 2, -42315), (0xA7AD, 0xA7AD, 2, -42305),
    (0xA7AE, 0xA7AE, 2, -42308), (0xA7B0, 0xA7B0, 2, -42258), (0xA7B1, 0xA7B1, 2, -42282),
    (0xA7B2, 0xA7B2, 2, -42261), (0xA7B3, 0xA7B3, 2, 928), (0xA7B4, 0xA7C2, 2, 1),
    (0xA7C4, 0xA7C4, 2, -48), (0xA7C5, 0xA7C5, 2, -42307), (0xA7C6, 0xA7C6, 2, -35384),
    (0xA7C7, 0xA7C9, 2, 1), (0xA7D0, 0xA7D0, 2, 1), (0xA7D6, 0xA7D8, 2, 1), (0xA7F5, 0xA7F5, 2, 1),
    (0xFF21, 0xFF3A, 1, 32), (0x10400, 0x10427, 1, 40), (0x104B0, 0x104D3, 1, 40),
    (0x10570, 0x1057A, 1, 39), (0x1057C, 0x1058A, 1, 39), (0x1058C, 0x10592, 1, 39),
    (0x10594, 0x10595, 1, 39), (0x10C80, 0x10CB2, 1, 64), (0x118A0, 0x118BF, 1, 32),
    (0x16E40, 0x16E5F, 1, 32), (0x1E900, 0x1E921, 1, 34)]

def runOf? (c : Char) : Option (Nat × Nat × Nat × Int) :=
  capitalRuns.find? fun (first, last, step, _) =>
    first ≤ c.toNat && c.toNat ≤ last && (c.toNat - first) % step == 0

/-- The small letter of a capital; only that of the dotted one takes two characters. -/
def lowerChar (c : Char) : List Char :=
  if c = 'İ' then ['i', '\u0307']
  else
    match runOf? c with
    | some (_, _, _, shift) => [Char.ofNat (Int.ofNat c.toNat + shift).toNat]
    | none => [c]

/-- The small letters of a text, of which the points before are known, the nearest first. The
sigma has a small letter of its own at the end of a word. -/
def lowerAfter (before : List Char) : Text → Text
  | [] => []
  | .char c :: rest =>
    let small :=
      if c = 'Σ' then
        if reachesCased before && !reachesCased (chars rest) then ['ς'] else ['σ']
      else lowerChar c
    ofChars small ++ lowerAfter (c :: before) rest
  | p :: rest => p :: lowerAfter (p.toChar :: before) rest

def lower (t : Text) : Text :=
  lowerAfter [] t

end ProofGate.Text
