import ProofGate.Proofs.Gate.Order

/-!
# What a gate releases

The whole of a gate, from words to values, as one condition on bytes. The texts of the statement
and of the query are compared as texts on the way; here they are the bytes that they spell.
-/

namespace ProofGate

/-- The bytes `p` say what `q` asks, and `values` is what they give for it. -/
structure Answers (p : Bytes) (q : Query) (values : List ℕ) : Prop where
  minBlock : (p.cut 16 4).natLE = q.minBlock.toNat
  maxBlock : (p.cut 24 4).natLE = q.maxBlock.toNat
  contract : Digits.spelled p 32 5 = q.contract.toBytes
  user : Digits.spelled p 72 5 = q.user.toBytes
  blockHash : Digits.spelled p 168 8 = Bytes.ofNatBE 32 q.blockHash.toNat
  identifier : (p.getD 360 0).toNat = q.identifier.toNat
  rewardsRate : (p.getD 360 0).toNat = 88 → Digits.joined p 232 8 = q.rewardsRate.toNat
  values :
    (p.getD 360 0).toNat = 67 ∧ values = Digits.listed p 128 5 ∨
      (p.getD 360 0).toNat = 88 ∧ values = [Digits.joined p 296 8]

/-! ## Members as bytes -/

theorem Statement.address_iff {p : Bytes} (offset : ℕ) (inside : offset + 40 ≤ p.length + 4)
    (a : Address) :
    a.checksum = (Address.ofBytes (Digits.spelled p offset 5)).checksum ↔
      Digits.spelled p offset 5 = a.toBytes := by
  have size : (Digits.spelled p offset 5).length = 20 := Digits.length_spelled (by omega)
  rw [Address.checksum_inj, eq_comm, Address.ofBytes_eq_iff size]

theorem Statement.hash_iff {p : Bytes} (offset : ℕ) (inside : offset + 64 ≤ p.length + 4)
    (h : BitVec 256) :
    (h.toNat : Int) = (Digits.spelled p offset 8).natBE ↔
      Digits.spelled p offset 8 = Bytes.ofNatBE 32 h.toNat := by
  have size : (Digits.spelled p offset 8).length = 32 := Digits.length_spelled (by omega)
  have wide : h.toNat < 256 ^ 32 := h.isLt
  rw [Int.natCast_inj]
  constructor
  · intro same
    apply Bytes.natBE_inj (by rw [size, Bytes.length_ofNatBE])
    rw [Bytes.natBE_ofNatBE, Nat.mod_eq_of_lt wide, same]
  · intro same
    rw [same, Bytes.natBE_ofNatBE, Nat.mod_eq_of_lt wide]

/-- Agreement and release, with texts and numbers replaced by the bytes they are read from. -/
theorem answers_iff {p : Bytes} (size : p.length = 368) {q : Query} {values : List ℕ} :
    Answers p q values ↔
      Matching.Agrees (Statement.ofBuffer p) q ∧
      (Release.tags (Statement.ofBuffer p).identifier p).passes = true ∧
      values = Release.ofBuffer (Statement.ofBuffer p).identifier p := by
  have contract := Statement.address_iff (p := p) 32 (by omega) q.contract
  have user := Statement.address_iff (p := p) 72 (by omega) q.user
  have blockHash := Statement.hash_iff (p := p) 168 (by omega) q.blockHash
  have given : (Statement.ofBuffer p).identifier = ((p.getD 360 0).toNat : ℕ) := rfl
  rw [given, Release.ofBuffer_iff]
  constructor
  · intro a
    refine ⟨⟨?minBlock, ?maxBlock, contract.mpr a.contract, user.mpr a.user,
      blockHash.mpr a.blockHash, ?rewardsRate, ?identifier⟩, a.values⟩
    case minBlock => exact congrArg Nat.cast a.minBlock.symm
    case maxBlock => exact congrArg Nat.cast a.maxBlock.symm
    case rewardsRate =>
      intro erc20
      exact congrArg Nat.cast (a.rewardsRate (Int.natCast_inj.mp erc20)).symm
    case identifier => exact congrArg Nat.cast a.identifier.symm
  · rintro ⟨a, values⟩
    refine ⟨?minBlock, ?maxBlock, contract.mp a.contract, user.mp a.user,
      blockHash.mp a.blockHash, ?identifier, ?rewardsRate, values⟩
    case minBlock => exact (Int.natCast_inj.mp a.minBlock).symm
    case maxBlock => exact (Int.natCast_inj.mp a.maxBlock).symm
    case identifier => exact (Int.natCast_inj.mp a.identifier).symm
    case rewardsRate =>
      intro erc20
      exact (Int.natCast_inj.mp (a.rewardsRate (congrArg Nat.cast erc20))).symm

/-! ## From words to values -/

namespace Gate

variable {σ : Type}

/-- A gate releases what its guards let pass, and nothing else. -/
theorem release_eq_ok_iff_guards {pairing : Pairing σ} {circuit : Int} {o : Submission} {q : Query}
    {s : σ} {values : List ℕ} :
    ((ofCircuit pairing circuit).release o.offer q s).outcome = .ok values ↔
      ∃ b, o.read = .ok b ∧ (pairing b.proof b.inputs s).outcome = .ok () ∧
        Guard.verdict (guards circuit b q) = .ok () ∧ values = released b := by
  cases read : o.read with
  | error e =>
    rw [release_unread (Submission.parts_of_unread read)]
    simp
  | ok b =>
    cases asked : (pairing b.proof b.inputs s).outcome with
    | error e =>
      rw [release_refused (g := ofCircuit pairing circuit) (Submission.parts_of_read read) asked]
      simp [asked]
    | ok _ =>
      rw [release_guarded pairing read asked, closed_outcome, map_eq_ok]
      constructor
      · rintro ⟨_, passed, rfl⟩
        exact ⟨b, rfl, asked, passed, rfl⟩
      · rintro ⟨_, same, _, passed, rfl⟩
        cases same
        exact ⟨(), passed, rfl⟩

theorem verdict_guards {circuit : Int} {b : Bundle} {q : Query} {values : List ℕ} :
    (Guard.verdict (guards circuit b q) = .ok () ∧ values = released b) ↔
      ((b.inputs.getD 0 0 : ℕ) : Int) = circuit ∧
      b.inputs.getD 2 0 = Binding.statementDigest b.statement ∧
      Answers b.statement q values := by
  have rows : Guard.verdict (guards circuit b q) = .ok () ↔
      Guard.verdict (front circuit b q) = .ok () ∧
      (Release.tags (Statement.ofBuffer b.statement).identifier b.statement).passes = true := by
    rw [guards_eq, Guard.verdict_eq_ok_iff, List.forall_mem_append, Guard.verdict_eq_ok_iff,
      List.forall_mem_singleton]
  rw [rows, verdict_front, answers_iff b.length_statement, released]
  simp only [and_assoc]

/-- **What a gate releases.** Values come out exactly if 23 words are read, the pairing accepts
the first eleven as numbers, the ninth is the circuit, the eleventh the digest of the 368 bytes
behind them, and those bytes answer the query with the values. -/
theorem release_eq_ok_iff (pairing : Pairing σ) (circuit : Int) (o : Submission) (q : Query)
    (s : σ) (values : List ℕ) :
    ((ofCircuit pairing circuit).release o.offer q s).outcome = .ok values ↔
      ∃ b p, o.read = .ok b ∧ b.words.length = 23 ∧ (∀ w ∈ b.words, w.length = 32) ∧
        p = (b.words.drop 11).flatten.take 368 ∧
        (pairing ((b.words.take 8).map Bytes.natBE) (((b.words.drop 8).take 3).map Bytes.natBE)
          s).outcome = .ok () ∧
        (((b.words.getD 8 []).natBE : ℕ) : Int) = circuit ∧
        (b.words.getD 10 []).natBE = (Keccak.digest p).natBE % 2 ^ 253 ∧
        Answers p q values := by
  rw [release_eq_ok_iff_guards]
  simp only [verdict_guards]
  constructor
  · rintro ⟨b, read, holds, circuit, digest, answers⟩
    refine ⟨b, b.statement, read, b.count, b.widths, rfl, holds, ?_, ?_, answers⟩
    · rw [← circuit, b.inputs_getD (i := 0) (by decide)]
    · rw [← b.inputs_getD (i := 2) (by decide), digest]
      rfl
  · rintro ⟨b, _, read, _, _, rfl, holds, circuit, digest, answers⟩
    refine ⟨b, read, holds, ?_, ?_, answers⟩
    · rw [← circuit, b.inputs_getD (i := 0) (by decide)]
    · rw [b.inputs_getD (i := 2) (by decide), digest]
      rfl

end Gate

/-! ## A bundle that is released -/

namespace Sample

/-- Twelve words that ask for ids, of nobody and in no block. No check looks at the first byte. -/
def rest (first : UInt8) : List Bytes :=
  (first :: Bytes.zeros 31) :: List.replicate 10 (Bytes.zeros 32)
    ++ [Bytes.zeros 8 ++ 67 :: Bytes.zeros 23]

def statement (first : UInt8) : Bytes :=
  (rest first).flatten.take 368

/-- The same words behind an empty proof and the inputs zero, zero and `claimed`. -/
def bundle (claimed : ℕ) (first : UInt8) : Bundle where
  words := List.replicate 10 (Bytes.zeros 32) ++ Bytes.ofNatBE 32 claimed :: rest first
  count := rfl
  widths := by simp [rest, Bytes.zeros]

def query (client : Address) : Query where
  contract := .ofNat 0
  user := .ofNat 0
  client := client
  minBlock := 0
  maxBlock := 0
  blockHash := 0
  rewardsRate := 0
  identifier := 67

/-- A gate for the circuit zero whose pairing holds for everything. -/
def gate : Gate Unit :=
  Gate.ofCircuit (fun _ _ => pure ()) 0

theorem statement_bundle (claimed : ℕ) (first : UInt8) :
    (bundle claimed first).statement = statement first := rfl

theorem inputs_bundle (claimed : ℕ) (first : UInt8) :
    (bundle claimed first).inputs = [0, 0, (Bytes.ofNatBE 32 claimed).natBE] := rfl

theorem head_bundle (claimed : ℕ) (first first' : UInt8) :
    (bundle claimed first).words.take 11 = (bundle claimed first').words.take 11 := rfl

theorem answers (first : UInt8) (client : Address) :
    Answers (statement first) (query client) [0, 0, 0, 0, 0] := by
  have tag : ((statement first).getD 360 0).toNat = 67 := rfl
  have nobody : (Address.ofNat 0).toBytes = Bytes.zeros 20 := by decide
  have unhashed : Bytes.ofNatBE 32 (0 : BitVec 256).toNat = Bytes.zeros 32 := by decide
  constructor
  case minBlock => rfl
  case maxBlock => rfl
  case contract => exact Eq.trans rfl nobody.symm
  case user => exact Eq.trans rfl nobody.symm
  case blockHash => exact Eq.trans rfl unhashed.symm
  case identifier => rfl
  case rewardsRate =>
    intro erc20
    rw [tag] at erc20
    cases erc20
  case values => exact Or.inl ⟨tag, rfl⟩

/-- With the digest of its own statement the bundle is released. -/
theorem released {claimed : ℕ} {first : UInt8}
    (binds : claimed = Binding.statementDigest (statement first)) (client : Address) :
    (gate.release (.bundle (bundle claimed first)) (query client) ()).outcome =
      .ok [0, 0, 0, 0, 0] := by
  have small : claimed < 256 ^ 32 := by
    rw [binds]
    exact lt_trans (Nat.mod_lt _ (by decide)) (by decide)
  refine Gate.release_eq_ok_iff_guards (o := .bundle _).mpr ⟨_, rfl, rfl, ?_⟩
  rw [Gate.verdict_guards, statement_bundle, inputs_bundle, Bytes.natBE_ofNatBE,
    Nat.mod_eq_of_lt small]
  exact ⟨rfl, binds, answers first client⟩

end Sample

end ProofGate
