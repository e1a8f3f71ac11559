import ProofGate.Binding
import ProofGate.Proofs.Guard
import ProofGate.Proofs.Value

/-!
# Circuit and digest

The two checks that tie a proof to a statement, each as a guard. Digests that are claimed of two
statements alike make a collision, unless the statements are one.
-/

namespace ProofGate.Binding

/-- The circuit that a proof names is the expected one. -/
def circuits (circuit : Int) (named : ℕ) : Guard where
  passes := (named : Int) == circuit
  failure := .circuitMismatch (.int circuit) (.int named)
  notes := ["Circuit digest matches"]

/-- The digest that a proof commits to is that of the statement. -/
def digests (claimed : ℕ) (p : Bytes) : Guard where
  passes := claimed == statementDigest p
  failure := .digestMismatch (.int claimed) (.int (statementDigest p))
  notes := ["Public inputs digest matches: " ++ Numeral.hexNat (statementDigest p)]

/-! ## Checks -/

theorem checkDigest_claimed {inputs : List ℕ} {n : ℕ} (h : inputs[2]? = some n) (p : Bytes) :
    checkDigest (inputs.map fun n : ℕ => Value.int n) p =
      if n = statementDigest p then .ok (statementDigest p)
      else .error (.digestMismatch (.int n) (.int (statementDigest p))) := by
  have claimed : inputAt (inputs.map fun n : ℕ => Value.int n) 2 = .ok (.int n) := by
    rw [inputAt, List.getElem?_map, h, Option.map_some]
  by_cases same : n = statementDigest p
  · have key : (Value.int n).sameKey (.int (statementDigest p)) = true := by
      rw [same, Value.sameKey_int, beq_self_eq_true]
    rw [if_pos same, checkDigest, claimed, ok_bind]
    dsimp only
    rw [key]
    rfl
  · have key : (Value.int n).sameKey (.int (statementDigest p)) = false := by
      rw [Value.sameKey_int, beq_eq_false_iff_ne]
      exact fun h => same (Int.ofNat_inj.mp h)
    rw [if_neg same, checkDigest, claimed, ok_bind]
    dsimp only
    rw [key]
    rfl

theorem checkDigest_eq_ok {inputs : List ℕ} {p : Bytes} {d : ℕ} :
    checkDigest (inputs.map fun n : ℕ => Value.int n) p = .ok d ↔
      inputs[2]? = some (statementDigest p) ∧ d = statementDigest p := by
  cases h : inputs[2]? with
  | none =>
    have missing : inputAt (inputs.map fun n : ℕ => Value.int n) 2 = .error .inputIndex := by
      rw [inputAt, List.getElem?_map, h, Option.map_none]
    rw [checkDigest, missing, error_bind]
    simp
  | some n =>
    rw [checkDigest_claimed h]
    by_cases same : n = statementDigest p
    · rw [if_pos same, same]
      simp [eq_comm]
    · rw [if_neg same]
      simp [same]

theorem checkCircuit_eq {inputs : List ℕ} {n : ℕ} (h : inputs[0]? = some n) (circuit : Int) :
    checkCircuit (.int circuit) (inputs.map fun n : ℕ => Value.int n) =
      (Guard.verdict [circuits circuit n]).map fun _ => () := by
  have named : inputAt (inputs.map fun n : ℕ => Value.int n) 0 = .ok (.int n) := by
    rw [inputAt, List.getElem?_map, h, Option.map_some]
  rw [checkCircuit, named, ok_bind, Value.sameKey_int, Guard.verdict_single]
  show _ = (if ((n : Int) == circuit) then _ else _ : Except Failure Unit).map _
  cases (n : Int) == circuit <;> rfl

theorem checkDigest_eq {inputs : List ℕ} {n : ℕ} (h : inputs[2]? = some n) (p : Bytes) :
    checkDigest (inputs.map fun n : ℕ => Value.int n) p =
      (Guard.verdict [digests n p]).map fun _ => statementDigest p := by
  rw [checkDigest_claimed h, Guard.verdict_single]
  by_cases same : n = statementDigest p <;> simp [digests, same]

/-! ## Collisions -/

/-- Two byte strings with the same digest. -/
def Collision (p p' : Bytes) : Prop :=
  p ≠ p' ∧ statementDigest p = statementDigest p'

end ProofGate.Binding
