import ProofGate.Proofs.Statement.RoundTrip
import Mathlib.Data.List.GetD

/-!
# Writing what was read

Any bytes of the right length are read, so most of them say the same as others. Writing a
statement that was read gives the canonical ones: what the reader passes over is zero, and an
amount stands in its first digit.
-/

namespace ProofGate

/-! ## Bytes that are kept -/

namespace Digits

/-- Elements have empty high halves if each of their bytes there is zero. -/
theorem narrowed_eq_iff {p : Bytes} {count : ℕ} (h : p.length = 8 * count) :
    narrowed p = p ↔ ∀ i, 4 ≤ i % 8 → p.getD i 0 = 0 := by
  obtain ⟨es, rfl, rfl, widths⟩ := Bytes.exists_pieces h
  clear h
  rw [narrowed_flatten widths]
  induction es with
  | nil => simp
  | cons e es ih =>
    rw [List.forall_mem_cons] at widths
    obtain ⟨width, widths⟩ := widths
    have half : (e.take 4 ++ Bytes.zeros 4).length = e.length := by
      rw [List.length_append, List.length_take, width]
      rfl
    have first : e.take 4 ++ Bytes.zeros 4 = e ↔ ∀ i, 4 ≤ i → e.getD i 0 = 0 := by
      have tail := Bytes.take_append_zeros_eq_iff e 4
      rwa [width] at tail
    have here (i : ℕ) (hi : i < 8) : (e ++ es.flatten).getD i 0 = e.getD i 0 :=
      List.getD_append _ _ _ _ (by omega)
    have there (i : ℕ) : (e ++ es.flatten).getD (i + 8) 0 = es.flatten.getD i 0 := by
      rw [List.getD_append_right _ _ _ _ (by omega), width, Nat.add_sub_cancel]
    rw [List.flatMap_cons, List.flatten_cons]
    constructor
    · intro same i hi
      obtain ⟨now, next⟩ := List.append_inj same half
      by_cases front : i < 8
      · rw [here i front]
        exact first.mp now i (by omega)
      · obtain ⟨past, rfl⟩ := Nat.exists_eq_add_of_le' (Nat.le_of_not_lt front)
        rw [there]
        exact (ih widths).mp next past (by omega)
    · intro blank
      have now : e.take 4 ++ Bytes.zeros 4 = e := first.mpr fun i hi => by
        by_cases front : i < 8
        · rw [← here i front]
          exact blank i (by omega)
        · rw [List.getD_eq_default _ _ (by omega)]
      have next := (ih widths).mpr fun i hi => by
        rw [← there]
        exact blank (i + 8) (by omega)
      rw [now, next]

/-- An amount stands alone in its first digit if all bytes behind that are zero. -/
theorem joined_alone_iff {p : Bytes} (h : p.length = 64) :
    Bytes.ofNatLE 4 (joined p 0 8) ++ Bytes.zeros 60 = p ↔ ∀ i, 4 ≤ i → p.getD i 0 = 0 := by
  have tail := Bytes.take_append_zeros_eq_iff p 4
  rw [h] at tail
  have low : (p.take 4).length = 4 := by
    rw [List.length_take, h]
    rfl
  rw [← tail]
  constructor
  · intro same
    have head : p.take 4 = Bytes.ofNatLE 4 (joined p 0 8) := by
      nth_rewrite 1 [← same]
      exact List.take_left' (Bytes.length_ofNatLE ..)
    rw [head]
    exact same
  · intro alone
    have small := Bytes.natLE_lt (p.take 4)
    have back := Bytes.ofNatLE_natLE (p.take 4)
    rw [low] at small back
    have amount : joined p 0 8 = Bytes.natLE (p.take 4) := by
      have limbs := carried_limbs_of_lt small
      rw [back] at limbs
      nth_rewrite 1 [← alone, show 64 - 4 = 60 from rfl]
      rw [← limbs, joined_limbs, merged_of_lt small]
    rw [amount, back]
    exact alone

end Digits

namespace Field

/-- What a statement keeps of the bytes of a field. -/
def kept : Field → Bytes → Bytes
  | .blockNumber, p => p
  | .range, p => p
  | .mappingSlot, p => p
  | .mappingSlotLength, p => p
  | .rewardsRate, p => Bytes.ofNatLE 4 (Digits.joined p 0 8) ++ Bytes.zeros 60
  | .erc20Result, p => Bytes.ofNatLE 4 (Digits.joined p 0 8) ++ Bytes.zeros 60
  | .identifier, p => p.take 1 ++ Bytes.zeros 7
  | _, p => Digits.narrowed p

/-- Whether a byte of a field is zero in what is kept. -/
def Idle : Field → ℕ → Prop
  | .blockNumber, _ => False
  | .range, _ => False
  | .mappingSlot, _ => False
  | .mappingSlotLength, _ => False
  | .rewardsRate, i => 4 ≤ i
  | .erc20Result, i => 4 ≤ i
  | .identifier, i => 1 ≤ i
  | _, i => 4 ≤ i % 8

theorem kept_eq_iff (f : Field) {ids : Int} {p : Bytes} (h : p.length = 8 * (f.digits ids).toNat) :
    f.kept p = p ↔ ∀ i, f.Idle i → p.getD i 0 = 0 := by
  cases f
  case blockNumber => simp [kept, Idle]
  case range => simp [kept, Idle]
  case mappingSlot => simp [kept, Idle]
  case mappingSlotLength => simp [kept, Idle]
  case rewardsRate => exact Digits.joined_alone_iff h
  case erc20Result => exact Digits.joined_alone_iff h
  case identifier =>
    have width : p.length = 8 := h
    have tail := Bytes.take_append_zeros_eq_iff p 1
    rwa [width] at tail
  all_goals exact Digits.narrowed_eq_iff h

end Field

namespace Statement

/-! ## Statements that were read -/

section Pieces

variable {piece : Field → Bytes} {ids : Int}

/-- The address that the bytes of a field spell. -/
def spelledAddress (p : Bytes) : Address :=
  Address.ofBytes (Digits.spelled p 0 5)

theorem toBytes_spelledAddress {p : Bytes} (h : p.length = 8 * 5) :
    (spelledAddress p).toBytes = Digits.spelled p 0 5 :=
  Address.toBytes_ofBytes (Digits.length_spelled (by omega))

/-- Whatever is read is in range. -/
theorem writable_ofPieces (h : 0 ≤ ids)
    (size : ∀ f, (piece f).length = 8 * (f.digits ids).toNat) :
    (ofPieces piece).Writable ids (spelledAddress (piece .contract))
      (spelledAddress (piece .user)) := by
  have element (f : Field) (width : (piece f).length = 8) :
      0 ≤ ((piece f).natLE : Int) ∧ ((piece f).natLE : Int) < 2 ^ 64 := by
    have := Bytes.natLE_lt (piece f)
    rw [width] at this
    omega
  have block (f : Field) :
      0 ≤ (((piece f).cut 0 4).natLE : Int) ∧ (((piece f).cut 0 4).natLE : Int) < 2 ^ 32 := by
    have := Bytes.natLE_lt ((piece f).cut 0 4)
    have : 256 ^ ((piece f).cut 0 4).length ≤ 256 ^ 4 :=
      Nat.pow_le_pow_right (by decide) (List.length_take_le ..)
    omega
  have amount (f : Field) (width : (piece f).length = 8 * 8) :
      0 ≤ (Digits.joined (piece f) 0 8 : Int) ∧ (Digits.joined (piece f) 0 8 : Int) < 2 ^ 256 := by
    have := Digits.joined_lt width
    omega
  have count : (piece .nftIds).length / 8 = ids.toNat := by
    rw [size .nftIds, Nat.mul_div_cancel_left _ (by decide)]
    rfl
  have idsRange : ∀ n ∈ (ofPieces piece).nftIds, 0 ≤ n ∧ n < 2 ^ 32 := by
    intro n hn
    obtain ⟨m, hm, rfl⟩ := List.mem_map.mp hn
    rw [count] at hm
    have := Digits.listed_lt (size .nftIds) m hm
    show 0 ≤ (m : Int) ∧ (m : Int) < 2 ^ 32
    omega
  have blockHash : (Digits.spelled (piece .blockHash) 0 8).natBE < 256 ^ 32 := by
    have whole : (piece .blockHash).length = 8 * 8 := size .blockHash
    have width : (Digits.spelled (piece .blockHash) 0 8).length = 4 * 8 :=
      Digits.length_spelled (by omega)
    have := Bytes.natBE_lt (Digits.spelled (piece .blockHash) 0 8)
    rwa [width] at this
  exact
    { nftIds := idsRange
      count := by
        show (((Digits.listed _ 0 ((piece .nftIds).length / 8)).map Int.ofNat).length : Int) = ids
        rw [count, List.length_map, Digits.listed, List.length_map, List.length_range]
        omega
      blockNumber := element _ (size .blockNumber)
      range := element _ (size .range)
      minBlock := block .minBlock
      maxBlock := block .maxBlock
      contract := Address.ofText_checksum _
      user := Address.ofText_checksum _
      mappingSlot := element _ (size .mappingSlot)
      mappingSlotLength := element _ (size .mappingSlotLength)
      blockHash := by
        show 0 ≤ ((Digits.spelled (piece .blockHash) 0 8).natBE : Int) ∧
          ((Digits.spelled (piece .blockHash) 0 8).natBE : Int) < 2 ^ 256
        omega
      rewardsRate := amount _ (size .rewardsRate)
      erc20Result := amount _ (size .erc20Result)
      identifier := by
        have := ((piece .identifier).getD 0 0).toNat_lt
        show 0 ≤ (((piece .identifier).getD 0 0).toNat : Int) ∧
          (((piece .identifier).getD 0 0).toNat : Int) < 2 ^ 64
        omega }

/-- The bytes of what was read are what is kept of the bytes. -/
theorem pieces_ofPieces (size : ∀ f, (piece f).length = 8 * (f.digits ids).toNat) :
    (ofPieces piece).pieces (spelledAddress (piece .contract)) (spelledAddress (piece .user)) =
      fun f => f.kept (piece f) := by
  have element {p : Bytes} (h : p.length = 8) : Digits.carried p.natLE = p := by
    rw [Digits.carried, ← h, Bytes.ofNatLE_natLE]
  have block {p : Bytes} (h : p.length = 8 * 1) :
      Digits.carried (p.cut 0 4).natLE = Digits.narrowed p := by
    rw [← Digits.carried_listed h]
    exact (List.append_nil _).symm
  have account {p : Bytes} (h : p.length = 8 * 5) :
      Sketch.leftPaddedElements (spelledAddress p).toBytes = Digits.narrowed p := by
    rw [toBytes_spelledAddress h, Digits.leftPaddedElements_spelled h]
  have amount {p : Bytes} (h : p.length = 8 * 8) :
      (Digits.limbs (Digits.joined p 0 8)).flatMap Digits.carried =
        Bytes.ofNatLE 4 (Digits.joined p 0 8) ++ Bytes.zeros 60 :=
    Digits.carried_limbs_of_lt (Digits.joined_lt h)
  funext f
  cases f
  case blockNumber => exact element (size .blockNumber)
  case range => exact element (size .range)
  case minBlock => exact block (size .minBlock)
  case maxBlock => exact block (size .maxBlock)
  case contract => exact account (size .contract)
  case user => exact account (size .user)
  case mappingSlot => exact element (size .mappingSlot)
  case mappingSlotLength => exact element (size .mappingSlotLength)
  case nftIds =>
    show (((Digits.listed (piece .nftIds) 0 ((piece .nftIds).length / 8)).map Int.ofNat).map
      Int.toNat).flatMap Digits.carried = Digits.narrowed (piece .nftIds)
    have same : Int.toNat ∘ Int.ofNat = id := rfl
    rw [List.map_map, same, List.map_id, size .nftIds, Nat.mul_div_cancel_left _ (by decide),
      Digits.carried_listed (size .nftIds)]
  case blockHash =>
    have whole : (piece .blockHash).length = 8 * 8 := size .blockHash
    have width : (Digits.spelled (piece .blockHash) 0 8).length = 32 :=
      Digits.length_spelled (by omega)
    show Sketch.leftPaddedElements
        (Bytes.ofNatBE 32 (Digits.spelled (piece .blockHash) 0 8).natBE) =
      Digits.narrowed (piece .blockHash)
    rw [← width, Bytes.ofNatBE_natBE, Digits.leftPaddedElements_spelled whole]
  case rewardsRate => exact amount (size .rewardsRate)
  case erc20Result => exact amount (size .erc20Result)
  case identifier =>
    have whole : (piece .identifier).length = 8 := size .identifier
    obtain ⟨b, rest, is⟩ : ∃ b rest, piece .identifier = b :: rest :=
      List.exists_cons_of_length_pos (by omega)
    have small : b.toNat < 256 ^ 1 := b.toNat_lt
    show Digits.carried ((piece .identifier).getD 0 0).toNat =
      (piece .identifier).take 1 ++ Bytes.zeros 7
    rw [is]
    show Bytes.ofNatLE (1 + 7) b.toNat = [b] ++ Bytes.zeros 7
    rw [Bytes.ofNatLE_of_lt small, Bytes.ofNatLE, UInt8.ofNat_toNat]
    rfl

/-- Nothing is lost of a statement that was read. -/
theorem reread_ofPieces (size : ∀ f, (piece f).length = 8 * (f.digits ids).toNat) :
    (ofPieces piece).reread (spelledAddress (piece .contract)) (spelledAddress (piece .user)) =
      ofPieces piece := by
  have amount (f : Field) (width : (piece f).length = 8 * 8) :
      Digits.merged (Digits.joined (piece f) 0 8) = Digits.joined (piece f) 0 8 :=
    Digits.merged_of_lt (Digits.joined_lt width)
  have rewardsRate := amount .rewardsRate (size .rewardsRate)
  have erc20Result := amount .erc20Result (size .erc20Result)
  have identifier : (((piece .identifier).getD 0 0).toNat : Int) % 256 =
      ((piece .identifier).getD 0 0).toNat := by
    have := ((piece .identifier).getD 0 0).toNat_lt
    omega
  rw [reread]
  simp only [ofPieces, Int.toNat_natCast, rewardsRate, erc20Result, identifier]
  rfl

end Pieces

/-! ## Under a regular layout -/

section Regular

variable {l : Layout} {b : Bytes}

theorem length_piece (h : l.Regular) (size : (b.length : Int) = l.total) (f : Field) :
    (l.piece b f).length = 8 * (f.digits l.ids).toNat := by
  have := h.inside f
  exact Bytes.length_cut (by omega)

/-- What was read is written as the bytes that were kept. -/
theorem encode_read (h : l.Regular) (size : (b.length : Int) = l.total) :
    (ofPieces (l.piece b)).encode l = .ok (l.written (fun f => f.kept (l.piece b f)) Field.all
      (Bytes.zeros l.total.toNat)) := by
  have sizes := length_piece h size
  rw [← pieces_ofPieces sizes]
  exact encode_eq_ok_iff.mpr ⟨h, _, _, writable_ofPieces h.ids sizes, rfl⟩

/-- The bytes that were kept say what all bytes said. -/
theorem decode_kept (h : l.Regular) (size : (b.length : Int) = l.total) :
    decode (l.written (fun f => f.kept (l.piece b f)) Field.all (Bytes.zeros l.total.toNat)) l =
      .ok (ofPieces (l.piece b)) := by
  have sizes := length_piece h size
  rw [← pieces_ofPieces sizes, (writable_ofPieces h.ids sizes).decode_written h,
    reread_ofPieces sizes]

end Regular

/-! ## Fields back to back -/

/-- Tiles cut from bytes join to all bytes between the start and the end. -/
theorem cut_tiles {start stop : Int} {ss : List Span} (begins : 0 ≤ start)
    (digits : ∀ s ∈ ss, 0 ≤ s.digits) (h : Plan.tile start ss = .ok stop) (b : Bytes) :
    (ss.flatMap fun s => b.cut s.offset.toNat s.length.toNat) =
      b.cut start.toNat (stop - start).toNat := by
  induction ss generalizing start with
  | nil =>
    cases h
    rw [Int.sub_self]
    rfl
  | cons s ss ih =>
    rw [List.forall_mem_cons] at digits
    obtain ⟨here, rest⟩ := Plan.tile_cons_eq_ok.mp h
    have size := s.stop_eq
    have forward := (Plan.tile_bounds digits.2 rest).1
    have length : s.length = s.digits * 8 := rfl
    have next : s.stop.toNat = start.toNat + s.length.toNat := by omega
    have whole : s.length.toNat + (stop - s.stop).toNat = (stop - start).toNat := by omega
    rw [List.flatMap_cons, ih (by omega) digits.2 rest, here, next, Bytes.cut_append_cut, whole]

/-- Bytes are made of their fields. -/
theorem flatMap_piece {l : Layout} {ids : ℕ} (h : l.toPlan = Plan.backToBack ids) {b : Bytes}
    (size : (b.length : Int) = l.total) : Field.all.flatMap (l.piece b) = b := by
  have regular := Layout.regular_of_backToBack h
  have order : l.spans = Field.all.map l.span := by
    rw [h, Plan.spans_backToBack]
  have join := cut_tiles (Int.le_refl 0) regular.nonneg (Layout.Regular.tiles l) b
  rw [order, List.flatMap_map, Int.sub_zero, ← size, Int.toNat_natCast] at join
  refine Eq.trans ?_ (join.trans (List.take_length ..))
  congr 1
  funext f
  rw [Layout.piece, regular.length f, Int.toNat_natCast, Layout.place]

/-- The bytes that say the same as others and nothing else: each field with what is kept of it. -/
def canonical (ids : ℕ) (b : Bytes) : Bytes :=
  Field.all.flatMap fun f => f.kept (b.cut (8 * f.first ids) (8 * (f.digits ids).toNat))

section BackToBack

variable {l : Layout} {ids : ℕ} {b : Bytes}

theorem piece_backToBack (h : l.toPlan = Plan.backToBack ids) (b : Bytes) (f : Field) :
    l.piece b f = b.cut (8 * f.first ids) (8 * (f.digits ids).toNat) := by
  rw [Layout.piece, Layout.place_of_backToBack h, Layout.room_of_backToBack h]

theorem canonical_eq_written (h : l.toPlan = Plan.backToBack ids)
    (size : (b.length : Int) = l.total) :
    canonical ids b = l.written (fun f => f.kept (l.piece b f)) Field.all
      (Bytes.zeros l.total.toNat) := by
  have regular := Layout.regular_of_backToBack h
  have sizes := length_piece regular size
  have writable := writable_ofPieces regular.ids sizes
  have length := writable.length_written regular
  have pieces := writable.piece_written regular
  rw [pieces_ofPieces sizes] at length pieces
  rw [← flatMap_piece h length, pieces, canonical]
  congr 1
  funext f
  rw [piece_backToBack h]

/-- The fields of the canonical bytes hold what is kept. -/
theorem piece_canonical (h : l.toPlan = Plan.backToBack ids) (size : (b.length : Int) = l.total) :
    l.piece (canonical ids b) = fun f => f.kept (l.piece b f) := by
  have regular := Layout.regular_of_backToBack h
  have sizes := length_piece regular size
  rw [canonical_eq_written h size, ← pieces_ofPieces sizes]
  exact (writable_ofPieces regular.ids sizes).piece_written regular

/-- Bytes are canonical if what is passed over is zero in each field. -/
theorem canonical_eq_iff (h : l.toPlan = Plan.backToBack ids)
    (size : (b.length : Int) = l.total) :
    canonical ids b = b ↔ ∀ (f : Field) (i : ℕ), i < 8 * (f.digits ids).toNat → f.Idle i →
      b.getD (8 * f.first ids + i) 0 = 0 := by
  have sizes := length_piece (Layout.regular_of_backToBack h) size
  have fields : canonical ids b = b ↔ ∀ f : Field, f.kept (l.piece b f) = l.piece b f := by
    constructor
    · intro same f
      have pieces := piece_canonical h size
      rw [same] at pieces
      exact (congrFun pieces f).symm
    · intro same
      have all : (fun f : Field => f.kept (l.piece b f)) = l.piece b := funext same
      have join := flatMap_piece h size
      rw [← all] at join
      rw [canonical]
      simpa only [piece_backToBack h] using join
  have byte (f : Field) (i : ℕ) : (l.piece b f).getD i 0 =
      if i < 8 * (f.digits ids).toNat then b.getD (8 * f.first ids + i) 0 else 0 := by
    rw [piece_backToBack h, List.getD_eq_getElem?_getD, Bytes.getElem?_cut]
    split
    · rw [List.getD_eq_getElem?_getD]
    · rfl
  rw [fields]
  refine forall_congr' fun f => (f.kept_eq_iff (sizes f)).trans (forall_congr' fun i => ?_)
  rw [byte]
  split <;> simp_all

/-- **Canonical bytes.** With its fields back to back a statement is read from any bytes of the
right length and from no others. It is written as the canonical bytes, which say the same; these
are the bytes that were read if none of the bytes passed over were set. -/
theorem encode_decode (ids : ℕ) :
    ∃ l, Layout.build ids = .ok l ∧ ∀ b : Bytes,
      (b.length ≠ 8 * (ids + 41) →
        ∃ e : Failure, decode b l = .error e ∧ e.kind = .malformedBundle) ∧
      (b.length = 8 * (ids + 41) → ∃ s, decode b l = .ok s ∧
        s.encode l = .ok (canonical ids b) ∧ decode (canonical ids b) l = .ok s ∧
        (s.encode l = .ok b ↔ ∀ (f : Field) (i : ℕ), i < 8 * (f.digits ids).toNat → f.Idle i →
          b.getD (8 * f.first ids + i) 0 = 0)) := by
  obtain ⟨l, built, plan⟩ := Layout.build_eq_ok ids
  have total := Layout.total_of_backToBack plan
  have regular := Layout.regular_of_backToBack plan
  refine ⟨l, built, fun b => ⟨fun other => ?_, fun length => ?_⟩⟩
  · have misfit : (b.length : Int) ≠ l.total := by
      rw [total]
      exact_mod_cast other
    exact ⟨_, decode_misfit misfit, rfl⟩
  · have size : (b.length : Int) = l.total := by
      rw [total, length]
    have whole := canonical_eq_written plan size
    have written : (ofPieces (l.piece b)).encode l = .ok (canonical ids b) := by
      rw [whole]
      exact encode_read regular size
    refine ⟨ofPieces (l.piece b), decode_regular regular size, written, ?_, ?_⟩
    · rw [whole]
      exact decode_kept regular size
    · rw [written, Except.ok.injEq]
      exact canonical_eq_iff plan size

end BackToBack

end Statement

end ProofGate
