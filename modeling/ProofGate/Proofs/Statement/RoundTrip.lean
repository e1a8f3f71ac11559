import ProofGate.Proofs.Statement.Writing

/-!
# Reading what was written

Whatever the order of its fields, a layout gives back what was written with it. Only what a
statement does not say in full is lost: the spelling of its addresses, all but the lowest byte of
its identifier, and the weight of the limbs of its two amounts.
-/

namespace ProofGate

namespace Digits

theorem natLE_carried {n : ℕ} (h : n < 256 ^ 8) : (carried n).natLE = n := by
  rw [carried, Bytes.natLE_ofNatLE, Nat.mod_eq_of_lt h]

/-- The first byte of an element counts a number up to 256. -/
theorem head_carried (n : ℕ) : ((carried n).getD 0 0).toNat = n % 256 := UInt8.toNat_ofNat'

end Digits

namespace Statement

variable {s : Statement} {contract user : Address} {ids : Int}

/-- What is left of a statement that was written and read again. -/
def reread (s : Statement) (contract user : Address) : Statement :=
  { s with
    contract := contract.checksum
    user := user.checksum
    identifier := s.identifier % 256
    rewardsRate := Digits.merged s.rewardsRate.toNat
    erc20Result := Digits.merged s.erc20Result.toNat }

/-- Amounts of one limb are left, and no others. -/
theorem merged_toNat_eq_iff {n : Int} (h : 0 ≤ n) :
    (Digits.merged n.toNat : Int) = n ↔ n < 2 ^ 32 := by
  have one := Digits.merged_eq_iff (n := n.toNat)
  omega

/-- Each field says what was written into it. -/
theorem ofPieces_pieces (h : s.Writable ids contract user) :
    ofPieces (s.pieces contract user) = s.reread contract user := by
  have element {n : Int} (range : 0 ≤ n ∧ n < 2 ^ 64) :
      ((Digits.carried n.toNat).natLE : Int) = n := by
    rw [Digits.natLE_carried (by omega)]
    omega
  have block {n : Int} (range : 0 ≤ n ∧ n < 2 ^ 32) :
      (((Digits.carried n.toNat).cut 0 4).natLE : Int) = n := by
    rw [Bytes.cut_zero, Digits.natLE_take_carried]
    omega
  have account (a : Address) :
      Address.ofBytes (Digits.spelled (Sketch.leftPaddedElements a.toBytes) 0 5) = a := by
    rw [Digits.spelled_leftPaddedElements a.length_toBytes, Address.ofBytes_toBytes]
  have ids : (Digits.listed ((s.nftIds.map Int.toNat).flatMap Digits.carried) 0
      (((s.nftIds.map Int.toNat).flatMap Digits.carried).length / 8)).map Int.ofNat = s.nftIds := by
    have small : ∀ n ∈ s.nftIds.map Int.toNat, n < 2 ^ 32 := by
      intro n hn
      obtain ⟨m, hm, rfl⟩ := List.mem_map.mp hn
      have := h.nftIds m hm
      omega
    rw [Digits.length_carried, Nat.mul_div_cancel_left _ (by decide), Digits.listed_carried small,
      List.map_map]
    refine (List.map_congr_left fun n hn => ?_).trans (List.map_id _)
    exact Int.toNat_of_nonneg (h.nftIds n hn).1
  have hash : ((Digits.spelled (Sketch.leftPaddedElements
      (Bytes.ofNatBE 32 s.blockHash.toNat)) 0 8).natBE : Int) = s.blockHash := by
    have range := h.blockHash
    have small : s.blockHash.toNat < 256 ^ 32 := by omega
    have width : (Bytes.ofNatBE 32 s.blockHash.toNat).length = 4 * 8 := Bytes.length_ofNatBE ..
    rw [Digits.spelled_leftPaddedElements width, Bytes.natBE_ofNatBE, Nat.mod_eq_of_lt small]
    omega
  have tag : (((Digits.carried s.identifier.toNat).getD 0 0).toNat : Int) = s.identifier % 256 := by
    have range := h.identifier
    rw [Digits.head_carried]
    omega
  rw [ofPieces, reread]
  simp only [pieces]
  rw [block h.minBlock, block h.maxBlock, account, account, tag, ids, hash, Digits.joined_limbs,
    Digits.joined_limbs, element h.blockNumber, element h.range, element h.mappingSlot,
    element h.mappingSlotLength]

section Written

variable {l : Layout}

theorem Writable.length_written (h : s.Writable l.ids contract user) (regular : l.Regular) :
    ((l.written (s.pieces contract user) Field.all (Bytes.zeros l.total.toNat)).length : Int) =
      l.total := by
  have total := l.total_eq
  have := regular.ids
  rw [Layout.length_written regular (length_pieces h.count) _ (Bytes.length_zeros _)]
  omega

theorem Writable.piece_written (h : s.Writable l.ids contract user) (regular : l.Regular) :
    l.piece (l.written (s.pieces contract user) Field.all (Bytes.zeros l.total.toNat)) =
      s.pieces contract user := by
  funext f
  rw [Layout.piece_written regular (length_pieces h.count) Field.nodup_all (Bytes.length_zeros _),
    if_pos (Field.mem_all f)]

theorem Writable.decode_written (h : s.Writable l.ids contract user) (regular : l.Regular) :
    decode (l.written (s.pieces contract user) Field.all (Bytes.zeros l.total.toNat)) l =
      .ok (s.reread contract user) := by
  rw [decode_regular regular (h.length_written regular), h.piece_written regular,
    ofPieces_pieces h]

end Written

/-- **Reading back.** With any layout, what was written has the length of the layout and is read as
the statement it was made from, up to the spelling of the addresses, the high bytes of the
identifier and the limbs of the amounts. -/
theorem decode_encode {l : Layout} {data : Bytes} (h : s.encode l = .ok data) :
    (data.length : Int) = l.total ∧ ∃ contract user, Address.ofText? s.contract = some contract ∧
      Address.ofText? s.user = some user ∧ decode data l = .ok (s.reread contract user) ∧
      ((s.reread contract user).rewardsRate = s.rewardsRate ↔ s.rewardsRate < 2 ^ 32) ∧
      ((s.reread contract user).erc20Result = s.erc20Result ↔ s.erc20Result < 2 ^ 32) := by
  obtain ⟨regular, contract, user, writable, rfl⟩ := encode_eq_ok_iff.mp h
  refine ⟨writable.length_written regular, contract, user, writable.contract, writable.user,
    writable.decode_written regular, ?_, ?_⟩
  · exact merged_toNat_eq_iff writable.rewardsRate.1
  · exact merged_toNat_eq_iff writable.erc20Result.1

/-- Two ids, addresses in small letters and numbers beyond one limb. -/
def sample : Statement where
  minBlock := 1
  maxBlock := 2
  contract := Text.ofString "0xabababababababababababababababababababab"
  user := Text.ofString "cdcdcdcdcdcdcdcdcdcdcdcdcdcdcdcdcdcdcdcd"
  identifier := 256 + 88
  nftIds := [7, 8]
  blockHash := 2 ^ 255
  rewardsRate := 2 ^ 64 + 2 ^ 32 + 4
  erc20Result := 9
  blockNumber := 3
  range := 4
  mappingSlot := 5
  mappingSlotLength := 6

/-- The fields in the opposite order. -/
def opposite : Layout where
  span f := ⟨f.name, Field.bytes 2 (Field.all.reverse.takeWhile (· ≠ f)), f.digits 2⟩
  ids := 2
  total := 344
  sound := by decide +kernel

/-- The sample written from its last field to its first. -/
theorem decode_encode_opposite :
    ∃ data, sample.encode opposite = .ok data ∧ data.length = 344 ∧ ∃ contract user,
      decode data opposite =
        .ok { sample with contract, user, identifier := 88, rewardsRate := 5 } := by
  have regular : opposite.Regular := ⟨by decide, fun f => by cases f <;> rfl⟩
  have writable : sample.Writable 2 (.ofBytes (List.replicate 20 0xab))
      (.ofBytes (List.replicate 20 0xcd)) := by
    constructor <;> decide
  have written := encode_eq_ok_iff.mpr ⟨regular, _, _, writable, rfl⟩
  obtain ⟨length, contract, user, _, _, back, _⟩ := decode_encode written
  exact ⟨_, written, Int.ofNat_inj.mp length, contract.checksum, user.checksum, back⟩

end Statement

end ProofGate
