import ProofGate.Matching
import ProofGate.Proofs.Address
import ProofGate.Proofs.Guard
import ProofGate.Proofs.Value

/-!
# Agreement of queries and statements

Matching succeeds exactly if the statement has the members that the query asks about, the rate
among them only for an aggregate. A query is asked about by six members, or by seven; the client
is never one of them, and queries that agree on those are one question.
-/

namespace ProofGate

namespace Matching

/-! ## Members in a row -/

/-- One member: what is expected and what is proved pass if they are equal. -/
def one (field : Checked) (expected actual : Value) : Guard where
  passes := expected.sameKey actual
  failure := .fieldMismatch (some field) expected actual
  notes := []

/-- The rate is asked for by an aggregate only. -/
def rates (s : Statement) (q : Query) : Guard :=
  { one .rewardsRate (.int q.rewardsRate.toNat) (.int s.rewardsRate) with
    passes := s.identifier != 88 || (q.rewardsRate.toNat : Int) == s.rewardsRate }

/-- The members in front of the identifier, in the order of their checks. -/
def members (s : Statement) (q : Query) : List Guard :=
  [one .minBlock (.int q.minBlock.toNat) (.int s.minBlock),
    one .maxBlock (.int q.maxBlock.toNat) (.int s.maxBlock),
    one .contract (.text q.contract.checksum) (.text s.contract),
    one .user (.text q.user.checksum) (.text s.user),
    one .blockHash (.int q.blockHash.toNat) (.int s.blockHash), rates s q]

def identifiers (s : Statement) (q : Query) : Guard :=
  one .identifier (.int q.identifier.toNat) (.int s.identifier)

theorem member_eq_verdict (field : Checked) (expected actual : Value) :
    member field expected actual = Guard.verdict [one field expected actual] := by
  rw [member, Guard.verdict_single]
  rfl

/-- Only an aggregate can fail for its rate. -/
theorem aggregate_of_rejected {s : Statement} {q : Query} (h : (rates s q).passes = false) :
    s.identifier = 88 := by
  by_contra other
  have pass : (rates s q).passes = true := by simp [rates, other]
  rw [pass] at h
  cases h

/-- Leaving the rate out and passing it are the same. -/
theorem verdict_rates (s : Statement) (q : Query) (rest : Except Failure Unit) :
    (if Tag.ofNumber? (.int s.identifier) = some .erc20 then
      member .rewardsRate (.int q.rewardsRate.toNat) (.int s.rewardsRate) >>= fun _ => rest
      else rest) = (Guard.verdict [rates s q] >>= fun _ => rest) := by
  by_cases erc20 : s.identifier = 88
  · have same : rates s q =
        one .rewardsRate (.int q.rewardsRate.toNat) (.int s.rewardsRate) := by
      simp [rates, one, erc20]
    rw [if_pos (Tag.ofNumber_eq_erc20.mpr erc20), member_eq_verdict, same]
  · have pass : (rates s q).passes = true := by simp [rates, erc20]
    rw [if_neg (fun h => erc20 (Tag.ofNumber_eq_erc20.mp h)), Guard.verdict_pass pass]
    rfl

/-- The checks of the members one after the other, whatever the texts that are expected of the two
account ids. -/
theorem row_eq_verdict (contract user : Text) (s : Statement) (q : Query) :
    (do
      member .minBlock (.int q.minBlock.toNat) (.int s.minBlock)
      member .maxBlock (.int q.maxBlock.toNat) (.int s.maxBlock)
      member .contract (.text contract) (.text s.contract)
      member .user (.text user) (.text s.user)
      member .blockHash (.int q.blockHash.toNat) (.int s.blockHash)
      if Tag.ofNumber? (.int s.identifier) = some .erc20 then
        member .rewardsRate (.int q.rewardsRate.toNat) (.int s.rewardsRate)
      member .identifier (.int q.identifier.toNat) (.int s.identifier)) =
    Guard.verdict
      [one .minBlock (.int q.minBlock.toNat) (.int s.minBlock),
        one .maxBlock (.int q.maxBlock.toNat) (.int s.maxBlock),
        one .contract (.text contract) (.text s.contract), one .user (.text user) (.text s.user),
        one .blockHash (.int q.blockHash.toNat) (.int s.blockHash), rates s q,
        identifiers s q] := by
  have row : [one .minBlock (.int q.minBlock.toNat) (.int s.minBlock),
        one .maxBlock (.int q.maxBlock.toNat) (.int s.maxBlock),
        one .contract (.text contract) (.text s.contract), one .user (.text user) (.text s.user),
        one .blockHash (.int q.blockHash.toNat) (.int s.blockHash), rates s q, identifiers s q] =
      [one .minBlock (.int q.minBlock.toNat) (.int s.minBlock)] ++
        ([one .maxBlock (.int q.maxBlock.toNat) (.int s.maxBlock)] ++
          ([one .contract (.text contract) (.text s.contract)] ++
            ([one .user (.text user) (.text s.user)] ++
              ([one .blockHash (.int q.blockHash.toNat) (.int s.blockHash)] ++
                ([rates s q] ++ [identifiers s q]))))) := rfl
  rw [row]
  simp only [Guard.verdict_append, ← verdict_rates, identifiers, ← member_eq_verdict]

/-- **Matching is a row of guards**, the identifier at its end. -/
theorem check_eq_verdict (s : Statement) (q : Query) :
    check s q = Guard.verdict (members s q ++ [identifiers s q]) :=
  row_eq_verdict q.contract.checksum q.user.checksum s q

/-! ## Agreement -/

/-- What a statement has to say to answer a query. -/
structure Agrees (s : Statement) (q : Query) : Prop where
  minBlock : (q.minBlock.toNat : Int) = s.minBlock
  maxBlock : (q.maxBlock.toNat : Int) = s.maxBlock
  contract : q.contract.checksum = s.contract
  user : q.user.checksum = s.user
  blockHash : (q.blockHash.toNat : Int) = s.blockHash
  rewardsRate : s.identifier = 88 → (q.rewardsRate.toNat : Int) = s.rewardsRate
  identifier : (q.identifier.toNat : Int) = s.identifier

/-- **Matching is agreement**, member by member. -/
theorem check_eq_ok_iff {s : Statement} {q : Query} : check s q = .ok () ↔ Agrees s q := by
  rw [check_eq_verdict, Guard.verdict_eq_ok_iff]
  simp only [members, identifiers, one, rates, Value.sameKey_int, Value.sameKey_text,
    List.cons_append, List.nil_append, List.forall_mem_cons, beq_iff_eq, Bool.or_eq_true,
    bne_iff_ne, ne_eq]
  constructor
  · rintro ⟨minBlock, maxBlock, contract, user, blockHash, rewardsRate, identifier, _⟩
    exact ⟨minBlock, maxBlock, contract, user, blockHash,
      fun erc20 => rewardsRate.resolve_left (not_not_intro erc20), identifier⟩
  · rintro ⟨minBlock, maxBlock, contract, user, blockHash, rewardsRate, identifier⟩
    refine ⟨minBlock, maxBlock, contract, user, blockHash, ?_, identifier, by simp⟩
    by_cases erc20 : s.identifier = 88
    · exact Or.inr (rewardsRate erc20)
    · exact Or.inl erc20

/-- A statement agrees if it does so but for its rate and the rate does not count or is the same. -/
theorem Agrees.of_rate {s : Statement} {q : Query}
    (agrees : Agrees { s with rewardsRate := q.rewardsRate.toNat } q)
    (rate : s.identifier = 88 → (q.rewardsRate.toNat : Int) = s.rewardsRate) : Agrees s q :=
  { minBlock := agrees.minBlock
    maxBlock := agrees.maxBlock
    contract := agrees.contract
    user := agrees.user
    blockHash := agrees.blockHash
    rewardsRate := rate
    identifier := agrees.identifier }

/-- A statement that agrees but for its rate is rejected for that. -/
theorem check_of_rate {s : Statement} {q : Query}
    (agrees : Agrees { s with rewardsRate := q.rewardsRate.toNat } q)
    (aggregate : s.identifier = 88) (differs : (q.rewardsRate.toNat : Int) ≠ s.rewardsRate) :
    check s q = .error (.fieldMismatch (some .rewardsRate) (.int q.rewardsRate.toNat)
      (.int s.rewardsRate)) := by
  have row : members s q ++ [identifiers s q] =
      [one .minBlock (.int q.minBlock.toNat) (.int s.minBlock),
        one .maxBlock (.int q.maxBlock.toNat) (.int s.maxBlock),
        one .contract (.text q.contract.checksum) (.text s.contract),
        one .user (.text q.user.checksum) (.text s.user),
        one .blockHash (.int q.blockHash.toNat) (.int s.blockHash)] ++
      rates s q :: [identifiers s q] := rfl
  have rejects : (rates s q).passes = false := by
    simp only [rates, aggregate, bne_self_eq_false, Bool.false_or, beq_eq_false_iff_ne]
    exact differs
  rw [check_eq_verdict, row]
  refine (Guard.verdict_first ?_ rejects _).1
  simp only [one, Value.sameKey_int, Value.sameKey_text, List.forall_mem_cons, beq_iff_eq]
  exact ⟨agrees.minBlock, agrees.maxBlock, agrees.contract, agrees.user, agrees.blockHash, by simp⟩

end Matching

/-! ## Questions -/

/-- Queries that ask the same: the client is left out, and the rate unless for an aggregate. -/
structure Query.Alike (q q' : Query) : Prop where
  minBlock : q.minBlock = q'.minBlock
  maxBlock : q.maxBlock = q'.maxBlock
  contract : q.contract = q'.contract
  user : q.user = q'.user
  blockHash : q.blockHash = q'.blockHash
  identifier : q.identifier = q'.identifier
  rewardsRate : q.identifier = 88 → q.rewardsRate = q'.rewardsRate

namespace Matching

theorem Agrees.aggregate_iff {s : Statement} {q : Query} (h : Agrees s q) :
    s.identifier = 88 ↔ q.identifier = 88 := by
  have small : (88 : BitVec 256).toNat = 88 := rfl
  rw [← h.identifier, ← BitVec.toNat_inj, small]
  omega

theorem counts_inj {w : ℕ} {n : Int} {a b : BitVec w} (ha : (a.toNat : Int) = n)
    (hb : (b.toNat : Int) = n) : a = b :=
  BitVec.toNat_inj.mp (Int.natCast_inj.mp (ha.trans hb.symm))

/-- **One question.** A statement that answers a query answers those that ask the same, and no
others. -/
theorem Agrees.iff_alike {s : Statement} {q : Query} (h : Agrees s q) (q' : Query) :
    Agrees s q' ↔ q.Alike q' := by
  constructor
  · intro h'
    refine ⟨counts_inj h.minBlock h'.minBlock, counts_inj h.maxBlock h'.maxBlock, ?contract, ?user,
      counts_inj h.blockHash h'.blockHash, counts_inj h.identifier h'.identifier, ?rewardsRate⟩
    case contract => exact Address.checksum_inj.mp (h.contract.trans h'.contract.symm)
    case user => exact Address.checksum_inj.mp (h.user.trans h'.user.symm)
    case rewardsRate =>
      intro erc20
      have asked := h.aggregate_iff.mpr erc20
      exact counts_inj (h.rewardsRate asked) (h'.rewardsRate asked)
  · intro alike
    constructor
    case minBlock =>
      rw [← alike.minBlock]
      exact h.minBlock
    case maxBlock =>
      rw [← alike.maxBlock]
      exact h.maxBlock
    case contract =>
      rw [← alike.contract]
      exact h.contract
    case user =>
      rw [← alike.user]
      exact h.user
    case blockHash =>
      rw [← alike.blockHash]
      exact h.blockHash
    case rewardsRate =>
      intro asked
      rw [← alike.rewardsRate (h.aggregate_iff.mp asked)]
      exact h.rewardsRate asked
    case identifier =>
      rw [← alike.identifier]
      exact h.identifier

/-- The client is not looked at. -/
theorem check_client (s : Statement) (q : Query) (client : Address) :
    check s { q with client } = check s q := rfl

/-- The rate is looked at for an aggregate only. -/
theorem check_rewardsRate {s : Statement} (other : s.identifier ≠ 88) (q : Query)
    (rewardsRate : BitVec 256) : check s { q with rewardsRate } = check s q := by
  have skip : ¬ Tag.ofNumber? s.sketch.identifier = some .erc20 :=
    fun h => other (Tag.ofNumber_eq_erc20.mp h)
  rw [check, check, checkSketch, checkSketch]
  simp only [if_neg skip]

end Matching

end ProofGate
