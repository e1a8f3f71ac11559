import ProofGate.Proofs.Command.Documents
import ProofGate.Proofs.Query
import ProofGate.Proofs.Statement.Canonical
import ProofGate.Proofs.Statement.Members

/-!
# Decoded statements described

The members of a statement show its numbers in three forms: as they are, in decimal figures, and the
hash in as many digits as it has. Each form writes its number, so a statement in range is described by
its own members, unless its tag is none of the two.
-/

namespace ProofGate

namespace Statement

variable {s : Statement} {ids : Int} {contract user : Address}

/-! ## The members of a statement -/

/-- The members that show a statement. -/
def members (s : Statement) : List (Text × Value) :=
  [("block_number", .int s.blockNumber),
    ("range", .int s.range),
    ("min_block_number", .int s.minBlock),
    ("max_block_number", .int s.maxBlock),
    ("contract_address", .text s.contract),
    ("user_address", .text s.user),
    ("mapping_slot", .int s.mappingSlot),
    ("mapping_slot_length", .int s.mappingSlotLength),
    ("nft_ids", .list (s.nftIds.map Value.int)),
    ("block_hash", .text (Query.hashText s.blockHash.toNat)),
    ("rewards_rate", .text (Value.int s.rewardsRate).bare),
    ("erc20_result", .text (Value.int s.erc20Result).bare),
    ("identifier", .int s.identifier)]

theorem taken_int {n : Int} (range : 0 ≤ n ∧ n < 2 ^ 256) :
    Taken (some (.int n)) (some n) := by
  obtain ⟨m, rfl⟩ := Int.eq_ofNat_of_zero_le range.1
  exact .given .int (Int.ofNat_lt.mp range.2)

theorem taken_decimal {n : Int} (range : 0 ≤ n ∧ n < 2 ^ 256) :
    Taken (some (.text (Value.int n).bare)) (some n) := by
  obtain ⟨m, rfl⟩ := Int.eq_ofNat_of_zero_le range.1
  have small : m < 2 ^ 256 := Int.ofNat_lt.mp range.2
  exact .given (Bundle.Spelled.decimal.counted small) small

theorem taken_hash {n : Int} (range : 0 ≤ n ∧ n < 2 ^ 256) :
    Taken (some (.text (Query.hashText n.toNat))) (some n) := by
  obtain ⟨m, rfl⟩ := Int.eq_ofNat_of_zero_le range.1
  have small : m < 2 ^ 256 := Int.ofNat_lt.mp range.2
  exact .given ((Bundle.spelled_hashText small).counted small) small

/-- Numbers of less bits than a word. -/
theorem below_word {n : Int} {bits : ℕ} (narrow : bits ≤ 256) (range : 0 ≤ n ∧ n < 2 ^ bits) :
    0 ≤ n ∧ n < 2 ^ 256 :=
  ⟨range.1, lt_of_lt_of_le range.2 (pow_le_pow_right₀ (by decide) narrow)⟩

/-- What is taken from the members of a statement in range are its numbers. -/
theorem taken_members (h : s.Writable ids contract user) :
    ∀ m ∈ s.numbers, Taken (Value.find? s.members m.1) (some m.2) := by
  simp only [numbers, List.forall_mem_cons]
  exact ⟨taken_int (below_word (by decide) h.minBlock),
    taken_int (below_word (by decide) h.maxBlock), taken_hash h.blockHash,
    taken_decimal h.rewardsRate, taken_decimal h.erc20Result,
    taken_int (below_word (by decide) h.blockNumber), taken_int (below_word (by decide) h.range),
    taken_int (below_word (by decide) h.mappingSlot),
    taken_int (below_word (by decide) h.mappingSlotLength), by simp⟩

theorem listed_members (h : s.Writable ids contract user) :
    Listed (Value.find? s.members "nft_ids") s.nftIds := by
  have writes : Writes (s.nftIds.map Value.int) s.nftIds := by
    rw [Writes, List.forall₂_map_left_iff, List.forall₂_same]
    exact fun n hn => taken_int (below_word (by decide) (h.nftIds n hn))
  exact .given rfl writes

theorem located_members [Address.CaseRule]
    (checksums : s.contract = contract.checksum ∧ s.user = user.checksum) :
    located s.members "contract_address" = .ok contract ∧
      located s.members "user_address" = .ok user := by
  rw [located_eq_ok_iff, located_eq_ok_iff]
  refine ⟨⟨.text s.contract, rfl, ?_⟩, ⟨.text s.user, rfl, ?_⟩⟩
  · rw [checksums.1]
    exact .checksum rfl
  · rw [checksums.2]
    exact .checksum rfl

/-! ## Reading back -/

/-- **Own members.** A statement in range is described by its members if its tag is one of the two
and its account ids are in checksum form. -/
theorem describes_members [Address.CaseRule] (h : s.Writable ids contract user)
    (checksums : s.contract = contract.checksum ∧ s.user = user.checksum) {t : Tag}
    (tag : s.identifier = t.code) : Describes s.members s where
  numbers m hm := ⟨some m.2, taken_members h m hm, rfl⟩
  blocks := by
    simp only [requiredNumbers, List.forall_mem_cons]
    exact ⟨nofun, nofun, by simp⟩
  contract := by
    obtain ⟨v, found, accepted⟩ := located_eq_ok_iff.mp (located_members checksums).1
    exact ⟨v, contract, found, accepted, checksums.1⟩
  user := by
    obtain ⟨v, found, accepted⟩ := located_eq_ok_iff.mp (located_members checksums).2
    exact ⟨v, user, found, accepted, checksums.2⟩
  identifier := by
    refine ⟨.int s.identifier, t, rfl, ?_, tag⟩
    rw [tag]
    cases t <;> rfl
  nftIds := listed_members h

end Statement

end ProofGate
