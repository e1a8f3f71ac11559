import ProofGate.Backoff
import ProofGate.Binding
import ProofGate.Bundle.Word

/-!
# Pairing

The check of the pairing proof is not done here: it is asked of a verifier. The verifying
contract reverts when it rejects; a revert is a rejection of the proof or of an input and is
never repeated, while a call that does not get through is. Before each call the contract is
opened; one that cannot be opened is not called, and says nothing about the proof.
-/

namespace ProofGate

/-- Accepts or rejects eight proof numbers and three inputs. -/
abbrev Pairing (σ : Type) := List Nat → List Nat → Run σ Unit

/-- A verifying contract: it is opened on a chain, at an address and under an interface, and then
asked about a proof. -/
structure Contract (σ : Type) where
  opening (chain address interface : Value) : Run σ Unit
  answer : Pairing σ

namespace Pairing

variable {σ : Type}

/-- The interface of the verifying contract. -/
def interface : Text := "groth16_verifier"

/-- What a revert for a proof that does not hold begins with. -/
def proofSelector : Bytes :=
  (Keccak.digest (Utf8.encode "ProofInvalid()")).take 4

/-- What a revert for an input outside the field begins with. -/
def fieldSelector : Bytes :=
  (Keccak.digest (Utf8.encode "PublicInputNotInField()")).take 4

/-- The first four bytes of the data of a revert, if it has any. -/
def selector (data : Value) : Bytes :=
  if data.isPresent then
    match Word.looseBytes data with
    | .ok bs => bs.take 4
    | .error _ => []
  else []

def revertData : Failure → Value
  | .contract _ _ data => data
  | _ => .null

/-- What a failed call says about the proof. -/
def judge (chain : Value) (e : Failure) : Run σ Unit :=
  if e.isA .customRevert then
    let found := selector (revertData e)
    if found = fieldSelector then Run.fail .inputRefused
    else if found = proofSelector then Run.fail .proofRefused
    else do
      Run.log .debug .pairing ("Unknown verifier revert selector: " ++ e.text)
      Run.fail .proofRefused
  else if e.isA .reverted then Run.fail (.proofReverted e)
  else if e.isA .system then Run.fail (.verifierUnreachable chain e)
  else Run.fail e

/-- Opens the contract at an address and calls it once. -/
def callOnce (chain address : Value) (opening call : Run σ Unit) : Run σ Unit := do
  opening
  Run.emit (.opened address interface)
  match ← call.attempt with
  | .ok () => pure ()
  | .error e => judge chain e

/-- The same check that the contract makes first: every input is an element of the field. -/
def checkInputs (index : Nat) : List Int → Except Failure Unit
  | [] => .ok ()
  | n :: ns =>
    if inScalarField n then checkInputs (index + 1) ns else .error (.inputOutsideField index)

/-- The check of inputs by the contract at an address, where `call` asks it about them and a proof;
repeated while it cannot be reached. -/
def verify (chain address : Value) (backoff : Backoff) (inputs : List Int)
    (opening call : Run σ Unit) : Run σ Unit := do
  Run.ofExcept (checkInputs 0 inputs)
  backoff.run (.text "verifyProof") (callOnce chain address opening call)

/-- The pairing that a contract checks. -/
def ofContract (chain address : Value) (backoff : Backoff) (contract : Contract σ) : Pairing σ :=
  fun proof inputs =>
    verify chain address backoff (inputs.map Int.ofNat)
      (contract.opening chain address (.text interface)) (contract.answer proof inputs)

end Pairing

end ProofGate
