import ProofGate.Bundle.Parse

/-!
# Parts of a bundle

What a gate reads of a bundle. Words that were taken as they are need not be byte strings: any
value of 32 elements passes for a word, and only reading it as a number or as bytes shows whether
it is one.
-/

namespace ProofGate

/-- The numbers of the proof and of its inputs; the bytes of the statement, which are read last. -/
structure Parts where
  proof : List Nat
  inputs : List Nat
  statement : Except Failure Bytes

def Bundle.parts (b : Bundle) : Parts :=
  ⟨b.proof, b.inputs, .ok b.statement⟩

/-- Words taken as they are, 23 values of 32 elements each. -/
structure LooseWords where
  words : List Value

namespace LooseWords

def checkSizes (index : Nat) : List Value → Except Failure Unit
  | [] => .ok ()
  | v :: vs => do
    let size := (← Member.sized v).length
    if size ≠ Word.length then throw (.wordSize index size)
    checkSizes (index + 1) vs

def ofValue (v : Value) : Except Failure LooseWords := do
  let vs ← Member.elements v
  if vs.length ≠ Bundle.wordCount then throw (.bundleSize Bundle.wordCount vs.length)
  checkSizes 0 vs
  pure ⟨vs⟩

/-- The numbers that words are read as. -/
def numbers (vs : List Value) : Except Failure (List Nat) := do
  let words ← vs.mapM Bundle.blobOf
  pure (words.map Bytes.natBE)

def proofValues (l : LooseWords) : List Value :=
  l.words.take Bundle.proofWords

def inputValues (l : LooseWords) : List Value :=
  (l.words.drop Bundle.proofWords).take Bundle.inputWords

def statementValues (l : LooseWords) : List Value :=
  l.words.drop (Bundle.proofWords + Bundle.inputWords)

def statement (l : LooseWords) : Except Failure Bytes := do
  let words ← l.statementValues.mapM Bundle.blobOf
  pure (words.flatten.take Layout.bytesInBundle)

def parts (l : LooseWords) : Except Failure Parts := do
  let proof ← numbers l.proofValues
  let inputs ← numbers l.inputValues
  pure ⟨proof, inputs, l.statement⟩

/-- A word that is a byte string, or else the failure to use it as one. -/
def bytesOr (failure : Value → Failure) (v : Value) : Except Failure Bytes :=
  match v with
  | .bytes bs => .ok bs
  | v => .error (failure v)

/-- The bundle of words that are byte strings. Those of the proof and its inputs are put
together before those of the statement are written. -/
def bundle (l : LooseWords) : Except Failure Bundle := do
  let parts ← l.parts
  let _ ← parts.statement
  let head ← (l.proofValues ++ l.inputValues).mapM (bytesOr .notBytes)
  let rest ← l.statementValues.mapM (bytesOr fun v => .noOperation v "hex")
  Bundle.check (head ++ rest)

end LooseWords

end ProofGate
