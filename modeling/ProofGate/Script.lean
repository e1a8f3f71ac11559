import ProofGate.Run

/-!
# Scripts

A script answers calls one after the other with given outcomes; the last one repeats for ever,
and where there is none every call fails. Its state is the number of calls it has answered.
-/

namespace ProofGate.Script

/-- The outcome of a call by its number. -/
def outcome (outcomes : List (Except Failure Value)) (call : Nat) : Except Failure Value :=
  match outcomes[call]? with
  | some r => r
  | none => outcomes.getLastD (.error .inputIndex)

/-- Answers one call. -/
def play (outcomes : List (Except Failure Value)) : Run Nat Value :=
  fun played => ⟨outcome outcomes played, [], played + 1⟩

end ProofGate.Script
