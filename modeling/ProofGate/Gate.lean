import ProofGate.Bundle.Parts
import ProofGate.Matching
import ProofGate.Pairing
import ProofGate.Release

/-!
# The gate

What stands between an untrusted bundle and the values it claims. Five checks in a fixed order,
the first that fails rejects: the pairing proof, the circuit, the digest of the statement, the
members of the query, and the tag by which values are released.
-/

namespace ProofGate

/-- A bundle, words taken as they are, or the words of a bundle yet to be checked. -/
inductive Offer where
  | bundle (b : Bundle)
  | loose (l : LooseWords)
  | words (v : Value)

def Offer.parts : Offer → Except Failure Parts
  | bundle b => .ok b.parts
  | loose l => l.parts
  | words v => (Bundle.ofWords v).map Bundle.parts

/-- A gate lets pass what the pairing accepts for one circuit. -/
structure Gate (σ : Type) where
  pairing : Pairing σ
  circuit : Value
  layout : Layout

namespace Gate

variable {σ : Type}

def note (text : Text) : Run σ Unit :=
  Run.log .debug .processor text

/-- Lets the values of a bundle pass if it answers a query. -/
def pass (g : Gate σ) (offer : Offer) (q : Query) : Run σ (List Nat) := do
  let parts ← Run.ofExcept offer.parts
  let inputs := parts.inputs.map fun (n : Nat) => Value.int n
  g.pairing parts.proof parts.inputs
  note "Groth16 proof verified"
  Run.ofExcept (Binding.checkCircuit g.circuit inputs)
  note "Circuit digest matches"
  let statement ← Run.ofExcept parts.statement
  let digest ← Run.ofExcept (Binding.checkDigest inputs statement)
  note ("Public inputs digest matches: " ++ Numeral.hexNat digest)
  let s ← Run.ofExcept (Statement.decode statement g.layout)
  Run.ofExcept (Matching.check s q)
  note ("Query matches public inputs (identifier " ++ Numeral.ofInt s.identifier ++ ", blocks "
    ++ Numeral.ofInt s.minBlock ++ "-" ++ Numeral.ofInt s.maxBlock ++ ")")
  let values ← Run.ofExcept (Release.values g.layout statement (.int s.identifier))
  note ("Released " ++ Numeral.ofNat values.length ++ " result value(s)")
  pure values

def rejection (e : Failure) : Text :=
  "Rejected query proof (" ++ e.kind.name ++ "): " ++ e.text

/-- The same with a warning for each rejection. -/
def release (g : Gate σ) (offer : Offer) (q : Query) : Run σ (List Nat) := do
  match ← (g.pass offer q).attempt with
  | .ok values => pure values
  | .error e => do
    if e.isA .rejection then Run.log .warning .processor (rejection e)
    Run.fail e

end Gate

end ProofGate
