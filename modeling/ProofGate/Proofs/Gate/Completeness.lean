import ProofGate.Proofs.Gate.Answers
import ProofGate.Proofs.Statement.RoundTrip

/-!
# Honest bundles

A statement that can be written, put behind its own digest and a proof that holds, is let through
for the query it was made for. There is one exception: amounts come back without the weight of
their limbs, so an aggregate of a rate that takes more than one limb is never released.
-/

namespace ProofGate

/-- A digest cut to 253 bits lies in the field. -/
theorem Binding.statementDigest_lt (p : Bytes) : statementDigest p < scalarField :=
  lt_trans (Nat.mod_lt _ (by decide)) (by decide : twoTo 253 < scalarField)

theorem inScalarField_natCast {n : ℕ} : inScalarField n = true ↔ n < scalarField := by
  rw [inScalarField, Bool.and_eq_true, decide_eq_true_iff, decide_eq_true_iff]
  omega

namespace Statement

variable {s : Statement} {contract user : Address} {q : Query} {d : Bytes}

/-- What is written with the layout of bundles is read as `reread` says. -/
theorem Writable.encode_standard (h : s.Writable 5 contract user) :
    ∃ d, s.encode Layout.standard = .ok d ∧ d.length = 368 ∧
      ofBuffer d = s.reread contract user := by
  have regular := Layout.regular_standard
  have written : s.Writable Layout.standard.ids contract user := h
  have length := written.length_written regular
  have back := written.decode_written regular
  have size := Int.ofNat_inj.mp (length.trans Layout.standard_total)
  rw [decode_standard size] at back
  exact ⟨_, encode_eq_ok_iff.mpr ⟨regular, contract, user, written, rfl⟩, size,
    Except.ok.inj back⟩

/-- Either tag is one byte. -/
theorem reread_identifier (tag : s.identifier = 67 ∨ s.identifier = 88) :
    (s.reread contract user).identifier = s.identifier := by
  show s.identifier % 256 = s.identifier
  omega

/-- A statement of one of the two tags agrees as before, up to the rate. -/
theorem reread_agrees (tag : s.identifier = 67 ∨ s.identifier = 88)
    (agrees : Matching.Agrees { s with contract := contract.checksum, user := user.checksum } q) :
    Matching.Agrees { s.reread contract user with rewardsRate := q.rewardsRate.toNat } q where
  minBlock := agrees.minBlock
  maxBlock := agrees.maxBlock
  contract := agrees.contract
  user := agrees.user
  blockHash := agrees.blockHash
  rewardsRate _ := rfl
  identifier := by
    have same : (s.reread contract user).identifier = s.identifier := reread_identifier tag
    exact agrees.identifier.trans same.symm

end Statement

namespace Gate

variable {s : Statement} {contract user : Address} {q : Query} {b : Bundle}

/-! ## What is released of a statement -/

theorem released_ids (read : Statement.ofBuffer b.statement = s.reread contract user)
    (nft : s.identifier = 67) : released b = s.nftIds.map Int.toNat := by
  have tag : (Statement.ofBuffer b.statement).identifier = 67 := by
    rw [read, Statement.reread_identifier (Or.inl nft), nft]
  have ids : (Digits.listed b.statement 128 5).map Int.ofNat = s.nftIds :=
    congrArg Statement.nftIds read
  have same : Int.toNat ∘ Int.ofNat = id := rfl
  rw [released, tag, Release.ofBuffer, if_pos rfl, ← ids, List.map_map, same, List.map_id]

theorem released_amount (read : Statement.ofBuffer b.statement = s.reread contract user)
    (erc20 : s.identifier = 88) : released b = [Digits.merged s.erc20Result.toNat] := by
  have tag : (Statement.ofBuffer b.statement).identifier = 88 := by
    rw [read, Statement.reread_identifier (Or.inr erc20), erc20]
  have amount : (Digits.joined b.statement 296 8 : Int) = Digits.merged s.erc20Result.toNat :=
    congrArg Statement.erc20Result read
  rw [released, tag, Release.ofBuffer, if_neg (by decide), Int.natCast_inj.mp amount]

/-! ## Bundles of a circuit -/

section Honest

variable {σ : Type} {pairing : Pairing σ} {st : σ} {c : ℕ}

/-- A bundle for a circuit, under the digest of its own statement, with a proof that holds. -/
structure Honest (pairing : Pairing σ) (st : σ) (c : ℕ) (b : Bundle) : Prop where
  holds : (pairing b.proof b.inputs st).outcome = .ok ()
  circuit : b.inputs.getD 0 0 = c
  digest : b.inputs.getD 2 0 = Binding.statementDigest b.statement

/-- Such a bundle is matched and released. -/
theorem Honest.release_eq (h : Honest pairing st c b) (q : Query) :
    ((ofCircuit pairing c).release (.bundle b) q st).outcome =
      (Matching.check (Statement.ofBuffer b.statement) q >>= fun _ => Guard.verdict
        [Release.tags (Statement.ofBuffer b.statement).identifier b.statement]).map
        fun _ => released b := by
  have run := release_guarded pairing (o := .bundle b) rfl h.holds c q
  rw [verdict_bound q (congrArg Nat.cast h.circuit) h.digest] at run
  exact (congrArg Trace.outcome run).trans (closed_outcome _)

theorem Honest.accepted (h : Honest pairing st c b)
    (read : Statement.ofBuffer b.statement = s.reread contract user)
    (tag : s.identifier = 67 ∨ s.identifier = 88)
    (agrees : Matching.Agrees (s.reread contract user) q) :
    ((ofCircuit pairing c).release (.bundle b) q st).outcome = .ok (released b) := by
  have known : Guard.verdict [Release.tags s.identifier b.statement] = .ok () := by
    rw [Guard.verdict_single, if_pos (by simpa [Release.tags] using tag)]
  rw [h.release_eq, read, Matching.check_eq_ok_iff.mpr agrees, ok_bind,
    Statement.reread_identifier tag, known, map_ok]

/-- An aggregate is rejected for its rate if it agrees but for that. -/
theorem Honest.rejected (h : Honest pairing st c b)
    (read : Statement.ofBuffer b.statement = s.reread contract user) (erc20 : s.identifier = 88)
    (agrees : Matching.Agrees { s.reread contract user with rewardsRate := q.rewardsRate.toNat } q)
    (lost : (q.rewardsRate.toNat : Int) ≠ Digits.merged s.rewardsRate.toNat) :
    ((ofCircuit pairing c).release (.bundle b) q st).outcome =
      .error (.fieldMismatch (some .rewardsRate) (.int q.rewardsRate.toNat)
        (.int (Digits.merged s.rewardsRate.toNat))) := by
  have tag : (s.reread contract user).identifier = 88 :=
    (Statement.reread_identifier (Or.inr erc20)).trans erc20
  rw [h.release_eq, read, Matching.check_of_rate agrees tag lost]
  rfl

end Honest

/-- **Completeness.** Let a statement be in range, a query agree with it, and a proof hold for it
under any circuit. The bundle made of them exists, its inputs are in the field whatever is written,
and the gate lets it through: ids are released as they are, of an amount the bits of its limbs
together. Only an aggregate whose rate takes more than one limb is rejected, for its rate. -/
theorem release_honest (writable : s.Writable 5 contract user)
    (agrees : Matching.Agrees { s with contract := contract.checksum, user := user.checksum } q)
    {c x : ℕ} (circuit : c < scalarField) (free : x < scalarField) {proof : List ℕ}
    (eight : proof.length = 8) (small : ∀ n ∈ proof, n < 2 ^ 256) :
    (∀ p : Bytes, ∀ n ∈ [c, x, Binding.statementDigest p], inScalarField n = true) ∧
    ∃ d b, s.encode Layout.standard = .ok d ∧
      Bundle.build (.list (proof.map fun n : ℕ => .int n))
        (.list [.int c, .int x, .int (Binding.statementDigest d)]) (.bytes d) = .ok b ∧
      ∀ (σ : Type) (pairing : Pairing σ) (st : σ),
        (pairing proof [c, x, Binding.statementDigest d] st).outcome = .ok () →
        (s.identifier = 67 → ((ofCircuit pairing c).release (.bundle b) q st).outcome =
          .ok (s.nftIds.map Int.toNat)) ∧
        (s.identifier = 88 → s.rewardsRate < 2 ^ 32 →
          ((ofCircuit pairing c).release (.bundle b) q st).outcome =
            .ok [Digits.merged s.erc20Result.toNat] ∧
          (Digits.merged s.erc20Result.toNat = s.erc20Result ↔ s.erc20Result < 2 ^ 32)) ∧
        (s.identifier = 88 → 2 ^ 32 ≤ s.rewardsRate →
          ((ofCircuit pairing c).release (.bundle b) q st).outcome =
            .error (.fieldMismatch (some .rewardsRate) (.int s.rewardsRate)
              (.int (Digits.merged s.rewardsRate.toNat)))) := by
  have inputs (p : Bytes) : ∀ n ∈ [c, x, Binding.statementDigest p], n < scalarField := by
    simp only [List.forall_mem_cons]
    exact ⟨circuit, free, Binding.statementDigest_lt p, by simp⟩
  refine ⟨fun p n hn => inScalarField_natCast.mpr (inputs p n hn), ?_⟩
  obtain ⟨d, encoded, size, read⟩ := writable.encode_standard
  have narrow : ∀ n ∈ [c, x, Binding.statementDigest d], n < 2 ^ 256 := fun n hn =>
    lt_trans (inputs d n hn) (by decide)
  obtain ⟨b, built, hproof, hinputs, rfl⟩ := Bundle.build_eq_ok eight rfl small narrow size
  refine ⟨_, b, encoded, built, fun σ pairing st accepts => ?_⟩
  rw [← hproof, ← hinputs] at accepts
  have honest : Honest pairing st c b :=
    { holds := accepts
      circuit := by rw [hinputs]; rfl
      digest := by rw [hinputs]; rfl }
  have limb := Statement.merged_toNat_eq_iff writable.rewardsRate.1
  refine ⟨fun nft => ?ids, fun erc20 one => ?amount, fun erc20 more => ?lost⟩
  case ids =>
    have matched : Matching.Agrees (s.reread contract user) q :=
      (Statement.reread_agrees (Or.inl nft) agrees).of_rate fun aggregate => by
        rw [Statement.reread_identifier (Or.inl nft), nft] at aggregate
        cases aggregate
    rw [honest.accepted read (Or.inl nft) matched, released_ids read nft]
  case amount =>
    have matched : Matching.Agrees (s.reread contract user) q :=
      (Statement.reread_agrees (Or.inr erc20) agrees).of_rate fun _ =>
        (agrees.rewardsRate erc20).trans (limb.mpr one).symm
    rw [honest.accepted read (Or.inr erc20) matched, released_amount read erc20]
    exact ⟨rfl, Statement.merged_toNat_eq_iff writable.erc20Result.1⟩
  case lost =>
    have asked : (q.rewardsRate.toNat : Int) = s.rewardsRate := agrees.rewardsRate erc20
    have lost : (q.rewardsRate.toNat : Int) ≠ Digits.merged s.rewardsRate.toNat := by
      rw [asked]
      intro same
      have := limb.mp same.symm
      omega
    rw [honest.rejected read erc20 (Statement.reread_agrees (Or.inr erc20) agrees) lost, asked]

end Gate

/-! ## Honest samples -/

namespace Sample

def contract : Address :=
  .ofBytes (List.replicate 20 0xab)

def user : Address :=
  .ofBytes (List.replicate 20 0xcd)

/-- A statement with its addresses in small letters. -/
def honest (tag rate amount : Int) : Statement where
  minBlock := 1
  maxBlock := 2
  contract := Text.ofString "0xabababababababababababababababababababab"
  user := Text.ofString "0xcdcdcdcdcdcdcdcdcdcdcdcdcdcdcdcdcdcdcdcd"
  identifier := tag
  nftIds := [9, 8, 7, 6, 5]
  blockHash := 4
  rewardsRate := rate
  erc20Result := amount
  blockNumber := 3
  range := 4
  mappingSlot := 5
  mappingSlotLength := 6

/-- The query that it answers. -/
def question (tag rate : ℕ) : Query where
  contract := contract
  user := user
  client := .ofNat 0
  minBlock := 1
  maxBlock := 2
  blockHash := 4
  rewardsRate := .ofNat 256 rate
  identifier := .ofNat 256 tag

/-- What the gate says to a statement behind its own digest and a proof of zeros. -/
def Says (s : Statement) (q : Query) (outcome : Except Failure (List ℕ)) : Prop :=
  ∃ d b, s.encode Layout.standard = .ok d ∧
    Bundle.build (.list (List.replicate 8 (.int 0)))
      (.list [.int 0, .int 1, .int (Binding.statementDigest d)]) (.bytes d) = .ok b ∧
    (gate.release (.bundle b) q ()).outcome = outcome

end Sample

namespace Gate

/-- Ids are released as they are and an amount of two limbs as their bits; an aggregate of a rate of
two limbs is rejected. -/
theorem release_honest_sample :
    Sample.Says (Sample.honest 67 (2 ^ 32) 0) (Sample.question 67 (2 ^ 32))
      (.ok [9, 8, 7, 6, 5]) ∧
    Sample.Says (Sample.honest 88 5 (2 ^ 32 + 6)) (Sample.question 88 5) (.ok [7]) ∧
    Sample.Says (Sample.honest 88 (2 ^ 32 + 6) 0) (Sample.question 88 (2 ^ 32 + 6))
      (.error (.fieldMismatch (some .rewardsRate) (.int (2 ^ 32 + 6)) (.int 7))) := by
  have eight : (List.replicate 8 0).length = 8 := rfl
  refine ⟨?_, ?_, ?_⟩
  · have writable : (Sample.honest 67 (2 ^ 32) 0).Writable 5 Sample.contract Sample.user := by
      constructor <;> decide
    obtain ⟨_, d, b, encoded, built, run⟩ := release_honest (q := Sample.question 67 (2 ^ 32))
      writable ⟨rfl, rfl, rfl, rfl, rfl, fun _ => rfl, rfl⟩ (c := 0) (x := 1) (by decide)
      (by decide) eight (by decide)
    exact ⟨d, b, encoded, built, (run Unit (fun _ _ => pure ()) () rfl).1 rfl⟩
  · have writable : (Sample.honest 88 5 (2 ^ 32 + 6)).Writable 5 Sample.contract Sample.user := by
      constructor <;> decide
    obtain ⟨_, d, b, encoded, built, run⟩ := release_honest (q := Sample.question 88 5)
      writable ⟨rfl, rfl, rfl, rfl, rfl, fun _ => rfl, rfl⟩ (c := 0) (x := 1) (by decide)
      (by decide) eight (by decide)
    have passes := (run Unit (fun _ _ => pure ()) () rfl).2.1 rfl (by decide)
    exact ⟨d, b, encoded, built, passes.1⟩
  · have writable : (Sample.honest 88 (2 ^ 32 + 6) 0).Writable 5 Sample.contract Sample.user := by
      constructor <;> decide
    obtain ⟨_, d, b, encoded, built, run⟩ := release_honest
      (q := Sample.question 88 (2 ^ 32 + 6)) writable
      ⟨rfl, rfl, rfl, rfl, rfl, fun _ => rfl, rfl⟩ (c := 0) (x := 1) (by decide) (by decide) eight
      (by decide)
    exact ⟨d, b, encoded, built, (run Unit (fun _ _ => pure ()) () rfl).2.2 rfl (by decide)⟩

end Gate

end ProofGate
