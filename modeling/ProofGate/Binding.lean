import ProofGate.Failure.Raised
import ProofGate.Keccak

/-!
# Binding

What ties a pairing proof to a statement: its first input names the circuit that wraps the
statement's proof, and its third input is the digest of the statement, cut to 253 bits so that
it is an element of the scalar field.
-/

namespace ProofGate

/-- The order of the field that pairing inputs belong to. -/
def scalarField : Nat :=
  21888242871839275222246405745257275088548364400416034343698204186575808495617

def inScalarField (n : Int) : Bool :=
  0 ≤ n && n < scalarField

namespace Binding

/-- The digest of a statement: its Keccak digest without the top three bits. -/
def statementDigest (statement : Bytes) : Nat :=
  Bytes.natBE (Keccak.digest statement) % twoTo 253

/-- The input at a position; a proof has three. -/
def inputAt (inputs : List Value) (position : Nat) : Except Failure Value :=
  match inputs[position]? with
  | some v => .ok v
  | none => .error .inputIndex

/-- The mismatch of two digests; one that is no integer cannot be told. -/
def mismatch (make : Value → Value → Failure) (expected actual : Value) : Failure :=
  match Failure.digests make expected actual with
  | .ok e => e
  | .error e => e

/-- Checks that a proof names the circuit that is expected. -/
def checkCircuit (circuit : Value) (inputs : List Value) : Except Failure Unit := do
  let actual ← inputAt inputs 0
  if !actual.sameKey circuit then throw (mismatch .circuitMismatch circuit actual)

/-- Checks the digest against the proof's and returns it. -/
def checkDigest (inputs : List Value) (statement : Bytes) : Except Failure Nat := do
  let claimed ← inputAt inputs 2
  let computed := statementDigest statement
  if !claimed.sameKey (.int computed) then
    throw (mismatch .digestMismatch claimed (.int computed))
  pure computed

end Binding

end ProofGate
