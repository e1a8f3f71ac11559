import ProofGate.Proofs.Gate.Answers

/-!
# Questions

Which queries a bundle answers. A gate that lets a bundle pass for one query lets it pass for
those that ask the same and for no others; what is not asked leaves no mark on a run, whether it
passes or not.
-/

namespace ProofGate

namespace Gate

variable {σ : Type}

/-- **Questions.** For what is accepted the accepted queries are those that ask the same, and they
are given the same values; for whatever is offered the client does not change the run, nor does
the rate unless it is an aggregate that is offered. -/
theorem accepted_iff_alike (g : Gate σ) (offer : Offer) (q : Query) (s : σ) :
    (∀ values, (g.release offer q s).outcome = .ok values → ∀ q' values',
      (g.release offer q' s).outcome = .ok values' ↔ q.Alike q' ∧ values' = values) ∧
    (∀ client, g.release offer { q with client } s = g.release offer q s) ∧
    ((∀ st, Reads g.layout offer st → st.identifier ≠ 88) → ∀ client rewardsRate,
      g.release offer { q with client, rewardsRate } s = g.release offer q s) := by
  refine ⟨?accepted, ?client, ?rate⟩
  case accepted =>
    intro values accepted q' values'
    obtain ⟨parts, read, holds, p, st, settled⟩ := release_outcome_eq_ok.mp accepted
    constructor
    · intro accepted'
      obtain ⟨parts', read', _, p', st', settled'⟩ := release_outcome_eq_ok.mp accepted'
      rw [read] at read'
      cases read'
      have one := settled.statement
      rw [settled'.statement] at one
      cases one
      obtain ⟨same, alike⟩ := Settled.unique rfl settled settled'
      exact ⟨alike, same.symm⟩
    · rintro ⟨alike, rfl⟩
      have agrees' := (settled.agrees.iff_alike q').mpr alike
      exact release_outcome_eq_ok.mpr
        ⟨parts, read, holds, p, st, { settled with agrees := agrees' }⟩
  case client =>
    intro client
    rw [release_congr fun st _ => Matching.check_client st q client]
  case rate =>
    intro other client rewardsRate
    have same : g.release offer { q with client, rewardsRate } = g.release offer q := by
      refine release_congr fun st reads => ?_
      calc Matching.check st { q with client, rewardsRate }
          = Matching.check st { q with rewardsRate } := Matching.check_client st { q with rewardsRate } client
        _ = Matching.check st q := Matching.check_rewardsRate (other st reads) q rewardsRate
    rw [same]

/-- The sample, asked by another client and for another rate. -/
theorem accepted_iff_alike_sample :
    ((Sample.gate.release (.bundle (Sample.bundle
        (Binding.statementDigest (Sample.statement 0)) 0)) (Sample.query (.ofNat 1)) ()).outcome =
        .ok [0, 0, 0, 0, 0] ↔
      (Sample.query (.ofNat 0)).Alike (Sample.query (.ofNat 1)) ∧
        [0, 0, 0, 0, 0] = [0, 0, 0, 0, 0]) ∧
    Sample.gate.release (.bundle (Sample.bundle
        (Binding.statementDigest (Sample.statement 0)) 0))
        { Sample.query (.ofNat 0) with client := .ofNat 1, rewardsRate := 1 } () =
      Sample.gate.release (.bundle (Sample.bundle
        (Binding.statementDigest (Sample.statement 0)) 0)) (Sample.query (.ofNat 0)) () := by
  obtain ⟨claimed, binds⟩ : ∃ n, n = Binding.statementDigest (Sample.statement 0) := ⟨_, rfl⟩
  rw [← binds]
  have ids : ∀ st, Reads Sample.gate.layout (.bundle (Sample.bundle claimed 0)) st →
      st.identifier ≠ 88 := by
    rintro st ⟨parts, p, read, statement, decoded⟩
    cases read
    cases statement
    rw [Sample.gate, ofCircuit, Statement.decode_standard (Bundle.length_statement _)] at decoded
    cases decoded
    exact (by decide : (67 : Int) ≠ 88)
  obtain ⟨accepted, _, rate⟩ := accepted_iff_alike Sample.gate (.bundle (Sample.bundle claimed 0))
    (Sample.query (.ofNat 0)) ()
  constructor
  · exact accepted _ (Sample.released binds (.ofNat 0)) (Sample.query (.ofNat 1)) _
  · exact rate ids (.ofNat 1) 1

end Gate

end ProofGate
