import ProofGate.Bundle.Word
import ProofGate.Layout

/-!
# Bundles

A bundle is 23 words: eight for the pairing proof, three for its inputs, and twelve for the
statement, of which the last sixteen bytes are filling. The same bytes are what a prover writes
and what the verifying contract receives.
-/

namespace ProofGate

structure Bundle where
  words : List Bytes
  count : words.length = 23
  widths : ∀ w ∈ words, w.length = 32

namespace Bundle

def wordCount : Nat := 23

def proofWords : Nat := 8

def inputWords : Nat := 3

/-- Index and size of the first word of another size than 32. -/
def misfit? (index : Nat) : List Bytes → Option (Nat × Nat)
  | [] => none
  | w :: ws => if w.length = Word.length then misfit? (index + 1) ws else some (index, w.length)

/-- Takes words for a bundle if there are 23 of the right size. -/
def check (words : List Bytes) : Except Failure Bundle :=
  if count : words.length = 23 then
    if widths : ∀ w ∈ words, w.length = 32 then .ok { words, count, widths }
    else
      let (index, size) := (misfit? 0 words).getD (0, 0)
      .error (.wordSize index size)
  else .error (.bundleSize wordCount words.length)

/-! ## Views -/

/-- The eight numbers of the pairing proof. -/
def proof (b : Bundle) : List Nat :=
  (b.words.take proofWords).map Bytes.natBE

/-- The three inputs of the pairing proof. -/
def inputs (b : Bundle) : List Nat :=
  ((b.words.drop proofWords).take inputWords).map Bytes.natBE

/-- All 736 bytes. -/
def toBuffer (b : Bundle) : Bytes :=
  b.words.flatten

/-- The bytes of the statement. -/
def statement (b : Bundle) : Bytes :=
  ((b.words.drop (proofWords + inputWords)).flatten).take Layout.bytesInBundle

/-- The bundle as a prover writes it, without filling. -/
def toBytes (b : Bundle) : Bytes :=
  (b.words.take (proofWords + inputWords)).flatten ++ b.statement

def toHexWords (b : Bundle) : List Text :=
  b.words.map Hex.marked

end Bundle

end ProofGate
