import ProofGate.Proofs.Address
import ProofGate.Proofs.Layout
import ProofGate.Statement.Decode
import Mathlib.Data.List.Basic

/-!
# Reading statements

Digits inside the bytes are read off in closed form: left padded ones spell a byte string, direct
ones are listed, or joined without a shift. Under a regular layout every statement of the right
length is readable, each member from the bytes of its own field alone; for the layout that bundles
carry the members stand at fixed places.
-/

namespace ProofGate

/-! ## Digits -/

namespace Digits

/-- The digit bytes of `count` elements, one digit behind the other. -/
def spelled (data : Bytes) (offset count : ℕ) : Bytes :=
  (List.range count).flatMap fun i => data.cut (offset + 8 * i) 4

/-- The direct digits of `count` elements. -/
def listed (data : Bytes) (offset count : ℕ) : List ℕ :=
  (List.range count).map fun i => (data.cut (offset + 8 * i) 4).natLE

/-- The bits set in any of `count` direct digits. -/
def joined (data : Bytes) (offset count : ℕ) : ℕ :=
  (listed data offset count).foldr (· ||| ·) 0

theorem spelled_succ (data : Bytes) (offset count : ℕ) :
    spelled data offset (count + 1) = data.cut offset 4 ++ spelled data (offset + 8) count := by
  simp only [spelled, List.range_succ_eq_map, List.flatMap_cons, List.flatMap_map]
  congr 2
  funext i
  congr 1
  omega

theorem listed_succ (data : Bytes) (offset count : ℕ) :
    listed data offset (count + 1) =
      (data.cut offset 4).natLE :: listed data (offset + 8) count := by
  simp only [listed, List.range_succ_eq_map, List.map_cons, List.map_map]
  congr 2
  funext i
  show (data.cut (offset + 8 * (i + 1)) 4).natLE = _
  congr 2
  omega

theorem length_spelled {data : Bytes} {offset count : ℕ}
    (h : offset + 8 * count ≤ data.length + 4) :
    (spelled data offset count).length = 4 * count := by
  induction count generalizing offset with
  | zero => rfl
  | succ count ih =>
    rw [spelled_succ, List.length_append, Bytes.length_cut (by omega), ih (by omega)]
    omega

/-! ## Reads of a cut -/

theorem spelled_cut {data : Bytes} {offset width count : ℕ} (h : 8 * count ≤ width) :
    spelled (data.cut offset width) 0 count = spelled data offset count := by
  rw [spelled, spelled, List.flatMap_def, List.flatMap_def]
  congr 1
  apply List.map_congr_left
  intro i hi
  have := List.mem_range.mp hi
  rw [Nat.zero_add, Bytes.cut_cut (by omega)]

theorem listed_cut {data : Bytes} {offset width count : ℕ} (h : 8 * count ≤ width) :
    listed (data.cut offset width) 0 count = listed data offset count := by
  rw [listed, listed]
  apply List.map_congr_left
  intro i hi
  have := List.mem_range.mp hi
  rw [Nat.zero_add, Bytes.cut_cut (by omega)]

theorem joined_cut {data : Bytes} {offset width count : ℕ} (h : 8 * count ≤ width) :
    joined (data.cut offset width) 0 count = joined data offset count := by
  rw [joined, joined, listed_cut h]

/-! ## Reads inside the bytes -/

theorem bytesAt_inside {data : Bytes} {offset : ℕ} (h : offset + 4 ≤ data.length) :
    bytesAt data offset = .ok (data.cut offset 4) := by
  rw [bytesAt, if_pos (by omega), Int.toNat_natCast]

theorem direct_inside {data : Bytes} {offset : ℕ} (h : offset + 4 ≤ data.length) :
    direct data offset = .ok (data.cut offset 4).natLE := by
  rw [direct, bytesAt_inside h, map_ok]

theorem leftPadded_inside {data : Bytes} {offset : ℕ} (h : offset + 4 ≤ data.length) :
    leftPadded data offset = .ok (data.cut offset 4).natBE := by
  rw [leftPadded, bytesAt_inside h, map_ok]

theorem element_inside {data : Bytes} {offset : ℕ} (h : offset + 8 ≤ data.length) :
    element data offset = .ok (data.cut offset 8).natLE := by
  rw [element, if_pos (by omega), Int.toNat_natCast]

/-- Shifting a digit over those behind it is writing it in front of them. -/
theorem assemble_inside {data : Bytes} {offset count : ℕ}
    (h : offset + 8 * count ≤ data.length + 4) :
    assemble data offset count = .ok (spelled data offset count).natBE := by
  induction count generalizing offset with
  | zero => rfl
  | succ count ih =>
    have next : (offset : Int) + 8 = (offset + 8 : ℕ) := rfl
    have hlen : (spelled data (offset + 8) count).length = 4 * count := length_spelled (by omega)
    have hlow : (spelled data (offset + 8) count).natBE < 2 ^ (32 * count) := by
      have := Bytes.natBE_lt (spelled data (offset + 8) count)
      rwa [hlen, show (256 : ℕ) = 2 ^ 8 by rfl, ← pow_mul,
        show 8 * (4 * count) = 32 * count by omega] at this
    rw [assemble, leftPadded_inside (by omega), ok_bind, next, ih (by omega), ok_bind,
      ← Nat.shiftLeft_add_eq_or_of_lt hlow, Nat.shiftLeft_eq, spelled_succ, Bytes.natBE_append,
      hlen, show (256 : ℕ) = 2 ^ 8 by rfl, ← pow_mul, show 8 * (4 * count) = 32 * count by omega]
    rfl

theorem union_inside {data : Bytes} {offset count : ℕ}
    (h : offset + 8 * count ≤ data.length + 4) :
    union data offset count = .ok (joined data offset count) := by
  induction count generalizing offset with
  | zero => rfl
  | succ count ih =>
    have next : (offset : Int) + 8 = (offset + 8 : ℕ) := rfl
    rw [union, direct_inside (by omega), ok_bind, next, ih (by omega), ok_bind]
    rw [joined, joined, listed_succ, List.foldr_cons]
    rfl

theorem directs_inside {data : Bytes} {offset count : ℕ}
    (h : offset + 8 * count ≤ data.length + 4) :
    directs data ((List.range count).map fun i => (offset : Int) + Int.ofNat i * 8) =
      .ok (listed data offset count) := by
  induction count generalizing offset with
  | zero => rfl
  | succ count ih =>
    have shift : (fun i : ℕ => (offset : Int) + Int.ofNat (i + 1) * 8) =
        fun i : ℕ => ((offset + 8 : ℕ) : Int) + Int.ofNat i * 8 := by
      funext i
      have up : Int.ofNat (i + 1) = Int.ofNat i + 1 := rfl
      rw [up]
      push_cast
      ring
    have first : (offset : Int) + Int.ofNat 0 * 8 = (offset : ℕ) := by simp
    rw [List.range_succ_eq_map, List.map_cons, List.map_map, directs, first,
      direct_inside (by omega), ok_bind]
    show (directs data ((List.range count).map
      fun i : ℕ => (offset : Int) + Int.ofNat (i + 1) * 8) >>= _) = _
    rw [shift, ih (by omega), ok_bind, listed_succ]
    rfl

end Digits

/-! ## Field by field -/

/-- The bytes of a field. -/
def Layout.piece (l : Layout) (p : Bytes) (f : Field) : Bytes :=
  p.cut (l.place f) (l.room f)

namespace Statement

theorem byteAt_inside {p : Bytes} {offset : ℕ} (h : offset < p.length) :
    byteAt p offset = .ok (p.getD offset 0).toNat := by
  rw [byteAt, Int.toNat_natCast, List.getD_eq_getElem?_getD, List.getElem?_eq_getElem h]
  rfl

/-- What the bytes of the fields say, each member from its own. -/
def ofPieces (piece : Field → Bytes) : Statement where
  minBlock := ((piece .minBlock).cut 0 4).natLE
  maxBlock := ((piece .maxBlock).cut 0 4).natLE
  contract := (Address.ofBytes (Digits.spelled (piece .contract) 0 5)).checksum
  user := (Address.ofBytes (Digits.spelled (piece .user) 0 5)).checksum
  identifier := ((piece .identifier).getD 0 0).toNat
  nftIds := (Digits.listed (piece .nftIds) 0 ((piece .nftIds).length / 8)).map Int.ofNat
  blockHash := (Digits.spelled (piece .blockHash) 0 8).natBE
  rewardsRate := Digits.joined (piece .rewardsRate) 0 8
  erc20Result := Digits.joined (piece .erc20Result) 0 8
  blockNumber := (piece .blockNumber).natLE
  range := (piece .range).natLE
  mappingSlot := (piece .mappingSlot).natLE
  mappingSlotLength := (piece .mappingSlotLength).natLE

/-- The members at their places among all bytes. -/
theorem ofPieces_piece {l : Layout} {p : Bytes}
    (inside : l.place .nftIds + 8 * l.ids.toNat ≤ p.length) :
    ofPieces (l.piece p) =
      { minBlock := (p.cut (l.place .minBlock) 4).natLE
        maxBlock := (p.cut (l.place .maxBlock) 4).natLE
        contract := (Address.ofBytes (Digits.spelled p (l.place .contract) 5)).checksum
        user := (Address.ofBytes (Digits.spelled p (l.place .user) 5)).checksum
        identifier := (p.getD (l.place .identifier) 0).toNat
        nftIds := (Digits.listed p (l.place .nftIds) l.ids.toNat).map Int.ofNat
        blockHash := (Digits.spelled p (l.place .blockHash) 8).natBE
        rewardsRate := Digits.joined p (l.place .rewardsRate) 8
        erc20Result := Digits.joined p (l.place .erc20Result) 8
        blockNumber := (p.cut (l.place .blockNumber) 8).natLE
        range := (p.cut (l.place .range) 8).natLE
        mappingSlot := (p.cut (l.place .mappingSlot) 8).natLE
        mappingSlotLength := (p.cut (l.place .mappingSlotLength) 8).natLE } := by
  have count : (l.piece p .nftIds).length / 8 = l.ids.toNat := by
    have size : (l.piece p .nftIds).length = 8 * l.ids.toNat := Bytes.length_cut inside
    rw [size, Nat.mul_div_cancel_left _ (by decide)]
  have low (f : Field) (wide : 4 ≤ l.room f) : (l.piece p f).cut 0 4 = p.cut (l.place f) 4 := by
    rw [Layout.piece, Bytes.cut_cut (by omega), Nat.add_zero]
  have minBlock := low .minBlock (by decide : 4 ≤ 8)
  have maxBlock := low .maxBlock (by decide : 4 ≤ 8)
  have contract : Digits.spelled (l.piece p .contract) 0 5 = Digits.spelled p (l.place .contract) 5 :=
    Digits.spelled_cut (by decide : 8 * 5 ≤ 8 * 5)
  have user : Digits.spelled (l.piece p .user) 0 5 = Digits.spelled p (l.place .user) 5 :=
    Digits.spelled_cut (by decide : 8 * 5 ≤ 8 * 5)
  have identifier : (l.piece p .identifier).getD 0 0 = p.getD (l.place .identifier) 0 := by
    have there : 0 < l.room .identifier := Nat.zero_lt_succ 7
    rw [List.getD_eq_getElem?_getD, Layout.piece, Bytes.getElem?_cut, if_pos there, Nat.add_zero,
      List.getD_eq_getElem?_getD]
  have nftIds : Digits.listed (l.piece p .nftIds) 0 l.ids.toNat =
      Digits.listed p (l.place .nftIds) l.ids.toNat :=
    Digits.listed_cut (le_refl (8 * l.ids.toNat))
  have blockHash : Digits.spelled (l.piece p .blockHash) 0 8 =
      Digits.spelled p (l.place .blockHash) 8 :=
    Digits.spelled_cut (by decide : 8 * 8 ≤ 8 * 8)
  have rewardsRate : Digits.joined (l.piece p .rewardsRate) 0 8 =
      Digits.joined p (l.place .rewardsRate) 8 :=
    Digits.joined_cut (by decide : 8 * 8 ≤ 8 * 8)
  have erc20Result : Digits.joined (l.piece p .erc20Result) 0 8 =
      Digits.joined p (l.place .erc20Result) 8 :=
    Digits.joined_cut (by decide : 8 * 8 ≤ 8 * 8)
  rw [ofPieces, count, minBlock, maxBlock, contract, user, identifier, nftIds, blockHash,
    rewardsRate, erc20Result]
  rfl

/-- **Totality.** Under a regular layout bytes of the right length are readable, whatever they
are. -/
theorem decode_regular {l : Layout} (h : l.Regular) {p : Bytes} (size : (p.length : Int) = l.total) :
    decode p l = .ok (ofPieces (l.piece p)) := by
  have fits : ¬ Int.ofNat p.length ≠ l.total := not_not_intro size
  have inside (f : Field) : l.place f + l.room f ≤ p.length := by
    have := h.inside f
    omega
  have minBlock : l.place .minBlock + 8 ≤ p.length := inside .minBlock
  have maxBlock : l.place .maxBlock + 8 ≤ p.length := inside .maxBlock
  have contract : l.place .contract + 8 * 5 ≤ p.length := inside .contract
  have user : l.place .user + 8 * 5 ≤ p.length := inside .user
  have nftIds : l.place .nftIds + 8 * l.ids.toNat ≤ p.length := inside .nftIds
  have blockHash : l.place .blockHash + 8 * 8 ≤ p.length := inside .blockHash
  have rewardsRate : l.place .rewardsRate + 8 * 8 ≤ p.length := inside .rewardsRate
  have erc20Result : l.place .erc20Result + 8 * 8 ≤ p.length := inside .erc20Result
  have identifier : l.place .identifier + 8 ≤ p.length := inside .identifier
  have offset (f : Field) : (l.span f).offset = l.place f := (h.bounds f).1
  have offsets : (l.span .nftIds).digitOffsets =
      (List.range l.ids.toNat).map fun i => (l.place .nftIds : Int) + Int.ofNat i * 8 := by
    rw [Span.digitOffsets, h.digits, offset]
    rfl
  simp only [decode, if_neg fits, Layout.identifierOffset, offset, offsets, Digits.address,
    Digits.hash, Digits.amount]
  rw [Digits.element_inside (inside .blockNumber), Digits.element_inside (inside .range),
    Digits.direct_inside (by omega), Digits.direct_inside (by omega),
    Digits.assemble_inside (by omega), Digits.assemble_inside (by omega),
    Digits.element_inside (inside .mappingSlot), Digits.element_inside (inside .mappingSlotLength),
    Digits.directs_inside (by omega), Digits.assemble_inside (by omega),
    Digits.union_inside (by omega), Digits.union_inside (by omega), byteAt_inside (by omega),
    ofPieces_piece nftIds]
  rfl

/-- Bytes of another length are refused. -/
theorem decode_misfit {l : Layout} {p : Bytes} (size : (p.length : Int) ≠ l.total) :
    decode p l = .error (.statementSize l.total p.length) := by
  have misfit : Int.ofNat p.length ≠ l.total := size
  rw [decode, if_pos misfit]
  rfl

end Statement

/-! ## The layout of bundles -/

theorem Layout.standard_total : Layout.standard.total = 368 := rfl

theorem Layout.regular_standard : Layout.standard.Regular :=
  Layout.regular_of_backToBack (show Layout.standard.toPlan = Plan.backToBack (5 : ℕ) from rfl)

/-- Where the fields of the statements that bundles carry begin. -/
def Field.place : Field → ℕ
  | .blockNumber => 0
  | .range => 8
  | .minBlock => 16
  | .maxBlock => 24
  | .contract => 32
  | .user => 72
  | .mappingSlot => 112
  | .mappingSlotLength => 120
  | .nftIds => 128
  | .blockHash => 168
  | .rewardsRate => 232
  | .erc20Result => 296
  | .identifier => 360

theorem Layout.standard_offset (f : Field) : (Layout.standard.span f).offset = f.place := by
  cases f <;> rfl

theorem Layout.standard_idOffsets :
    (Layout.standard.span .nftIds).digitOffsets =
      (List.range 5).map fun i => ((128 : ℕ) : Int) + Int.ofNat i * 8 := rfl

namespace Statement

/-- What the 368 bytes of a statement say, member by member. -/
def ofBuffer (p : Bytes) : Statement where
  minBlock := (p.cut 16 4).natLE
  maxBlock := (p.cut 24 4).natLE
  contract := (Address.ofBytes (Digits.spelled p 32 5)).checksum
  user := (Address.ofBytes (Digits.spelled p 72 5)).checksum
  identifier := (p.getD 360 0).toNat
  nftIds := (Digits.listed p 128 5).map Int.ofNat
  blockHash := (Digits.spelled p 168 8).natBE
  rewardsRate := Digits.joined p 232 8
  erc20Result := Digits.joined p 296 8
  blockNumber := (p.cut 0 8).natLE
  range := (p.cut 8 8).natLE
  mappingSlot := (p.cut 112 8).natLE
  mappingSlotLength := (p.cut 120 8).natLE

theorem ofPieces_standard {p : Bytes} (h : p.length = 368) :
    ofPieces (Layout.standard.piece p) = ofBuffer p := by
  have inside : Layout.standard.place .nftIds + 8 * Layout.standard.ids.toNat ≤ p.length := by
    rw [h]
    decide
  rw [ofPieces_piece inside]
  rfl

/-- The bytes that bundles carry are always readable. -/
theorem decode_standard {p : Bytes} (h : p.length = 368) :
    decode p Layout.standard = .ok (ofBuffer p) := by
  rw [decode_regular Layout.regular_standard (by rw [h, Layout.standard_total]; rfl),
    ofPieces_standard h]

end Statement

end ProofGate
