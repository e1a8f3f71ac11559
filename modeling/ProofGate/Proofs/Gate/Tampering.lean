import ProofGate.Proofs.Gate.Answers

/-!
# Tampering

A digest ties the statement to the inputs of the pairing. Behind words that a gate has accepted no
other statement passes, and two statements that pass behind one digest are one, unless they collide.
-/

namespace ProofGate

/-- A pairing that answers by the numbers it is asked about alone. -/
def Pairing.Steady {σ : Type} (pairing : Pairing σ) : Prop :=
  ∀ proof inputs s s', (pairing proof inputs s).outcome = (pairing proof inputs s').outcome

namespace Gate

variable {σ τ : Type}

/-- A bundle that is accepted has passed with its own numbers and statement. -/
theorem settled_of_accepted {g : Gate σ} {o : Submission} {b : Bundle} {q : Query} {s : σ}
    {values : List ℕ} (read : o.read = .ok b)
    (accepted : (g.release o.offer q s).outcome = .ok values) :
    (g.pairing b.proof b.inputs s).outcome = .ok () ∧
      ∃ st, g.Settled b.parts q b.statement st values := by
  obtain ⟨_, parts, holds, p, st, settled⟩ := release_outcome_eq_ok.mp accepted
  rw [Submission.parts_of_read read] at parts
  cases parts
  cases settled.statement
  exact ⟨holds, st, settled⟩

/-- Behind a circuit that is the expected one nothing but the digest is looked at first. -/
theorem settle_unbound {g : Gate σ} {parts : Parts} {p : Bytes} {claimed : ℕ}
    (circuit : Binding.checkCircuit g.circuit (parts.inputs.map fun n : ℕ => Value.int n) = .ok ())
    (statement : parts.statement = .ok p) (input : parts.inputs[2]? = some claimed)
    (differs : claimed ≠ Binding.statementDigest p) (q : Query) (s : σ) :
    (g.settle parts q s).outcome =
      .error (.digestMismatch (.int claimed) (.int (Binding.statementDigest p))) := by
  have rejects := Binding.checkDigest_claimed input p
  rw [if_neg differs] at rejects
  rw [settle, circuit, Run.ofExcept_ok_bind, note, Run.log_bind_apply, statement,
    Run.ofExcept_ok_bind, rejects, Run.ofExcept_error_bind]
  rfl

/-- A statement put behind words that were accepted is rejected for its digest. -/
theorem release_tampered {g : Gate σ} (steady : g.pairing.Steady) {o o' : Submission}
    {b b' : Bundle} {q : Query} {s : σ} {values : List ℕ} (read : o.read = .ok b)
    (read' : o'.read = .ok b') (accepted : (g.release o.offer q s).outcome = .ok values)
    (head : b'.words.take 11 = b.words.take 11)
    (differs : Binding.statementDigest b.statement ≠ Binding.statementDigest b'.statement)
    (q' : Query) (s' : σ) :
    (g.release o'.offer q' s').outcome =
      .error (.digestMismatch (.int (Binding.statementDigest b.statement))
        (.int (Binding.statementDigest b'.statement))) := by
  obtain ⟨sameProof, sameInputs⟩ := Bundle.numbers_of_head head
  have parts' := Submission.parts_of_read read'
  obtain ⟨holds, st, settled⟩ := settled_of_accepted read accepted
  have holds' : (g.pairing b'.parts.proof b'.parts.inputs s').outcome = .ok () := by
    show (g.pairing b'.proof b'.inputs s').outcome = _
    rw [sameProof, sameInputs, steady _ _ s' s]
    exact holds
  have circuit' : Binding.checkCircuit g.circuit
      (b'.parts.inputs.map fun n : ℕ => Value.int n) = .ok () := by
    show Binding.checkCircuit g.circuit (b'.inputs.map _) = _
    rw [sameInputs]
    exact settled.circuit
  have claimed' : b'.parts.inputs[2]? = some (Binding.statementDigest b.statement) := by
    show b'.inputs[2]? = _
    rw [sameInputs]
    exact settled.digest
  rw [release_settled parts' holds', closed_outcome, Run.after_outcome]
  exact settle_unbound circuit' rfl claimed' differs q' _

/-- **Tamper evidence.** Let a gate accept a bundle. Another statement behind the same words is
rejected for its digest, whatever is asked; and what any gate accepts behind the same digest gives
the same values for the same question. In both cases the one exception is a collision. -/
theorem tampering_collides (g : Gate σ) {o : Submission} {b : Bundle} {q : Query} {s : σ}
    {values : List ℕ} (read : o.read = .ok b)
    (accepted : (g.release o.offer q s).outcome = .ok values) :
    (∀ (o' : Submission) (b' : Bundle), g.pairing.Steady → o'.read = .ok b' →
      b'.words.take 11 = b.words.take 11 → b.statement ≠ b'.statement →
      (∀ (q' : Query) (s' : σ), (g.release o'.offer q' s').outcome =
        .error (.digestMismatch (.int (Binding.statementDigest b.statement))
          (.int (Binding.statementDigest b'.statement)))) ∨
        Binding.Collision b.statement b'.statement) ∧
    ∀ (τ : Type) (g' : Gate τ) (o' : Submission) (b' : Bundle) (q' : Query) (s' : τ)
      (values' : List ℕ), g'.layout = g.layout → o'.read = .ok b' →
      b'.inputs[2]? = b.inputs[2]? → (g'.release o'.offer q' s').outcome = .ok values' →
      Binding.Collision b.statement b'.statement ∨ values = values' ∧ q.Alike q' := by
  constructor
  · intro o' b' steady read' head other
    by_cases differs : Binding.statementDigest b.statement = Binding.statementDigest b'.statement
    · right
      exact ⟨other, differs⟩
    · left
      intro q' s'
      exact release_tampered steady read read' accepted head differs q' s'
  · intro τ g' o' b' q' s' values' layout read' inputs accepted'
    obtain ⟨_, st, settled⟩ := settled_of_accepted read accepted
    obtain ⟨_, st', settled'⟩ := settled_of_accepted read' accepted'
    by_cases same : b.statement = b'.statement
    · right
      rw [← same] at settled'
      exact Settled.unique layout.symm settled settled'
    · left
      have digests := settled'.digest
      change b'.inputs[2]? = _ at digests
      rw [inputs] at digests
      exact ⟨same, Option.some.inj (settled.digest.symm.trans digests)⟩

/-- The sample with another first byte behind the same words, and the sample asked by another
client. -/
theorem tampering_collides_sample :
    ((∀ (q : Query) (s : Unit), (Sample.gate.release (.bundle (Sample.bundle
        (Binding.statementDigest (Sample.statement 0)) 1)) q s).outcome =
        .error (.digestMismatch (.int (Binding.statementDigest (Sample.statement 0)))
          (.int (Binding.statementDigest (Sample.statement 1))))) ∨
      Binding.Collision (Sample.statement 0) (Sample.statement 1)) ∧
    (Binding.Collision (Sample.statement 0) (Sample.statement 0) ∨
      [0, 0, 0, 0, 0] = [0, 0, 0, 0, 0] ∧
        (Sample.query (.ofNat 0)).Alike (Sample.query (.ofNat 1))) := by
  obtain ⟨claimed, binds⟩ : ∃ n, n = Binding.statementDigest (Sample.statement 0) := ⟨_, rfl⟩
  rw [← binds]
  have accepted (client : Address) := Sample.released binds client
  have differs : Sample.statement 0 ≠ Sample.statement 1 := by
    intro same
    have heads : some (0 : UInt8) = some 1 := congrArg List.head? same
    exact absurd heads (by decide)
  obtain ⟨tampered, repeated⟩ := tampering_collides Sample.gate
    (o := .bundle (Sample.bundle claimed 0)) rfl (accepted (.ofNat 0))
  rw [Sample.statement_bundle, ← binds] at tampered
  rw [Sample.statement_bundle] at repeated
  constructor
  · exact tampered (.bundle (Sample.bundle claimed 1)) (Sample.bundle claimed 1)
      (fun _ _ _ _ => rfl) rfl (Sample.head_bundle claimed 1 0) differs
  · exact repeated Unit Sample.gate (.bundle (Sample.bundle claimed 0)) (Sample.bundle claimed 0)
      _ () _ rfl rfl rfl (accepted (.ofNat 1))

end Gate

end ProofGate
