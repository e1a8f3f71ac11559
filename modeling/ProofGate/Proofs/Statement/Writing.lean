import ProofGate.Proofs.Statement.Elements
import ProofGate.Proofs.Value

/-!
# Writing statements

A statement is written exactly if its members are in range, its addresses are spelled and the
layout is regular. What is written is the bytes of each field at its own place: writing one field
leaves all others as they are, so that in the end each is found where the layout has it.
-/

namespace ProofGate

/-! ## Fields among bytes -/

namespace Layout

variable {l : Layout} {piece : Field → Bytes}

/-- Writing one field changes that field only. -/
theorem piece_overwrite (h : l.Regular) {bytes : Bytes} (whole : bytes.length = l.total.toNat)
    {f : Field} {new : Bytes} (size : new.length = l.room f) (g : Field) :
    l.piece (bytes.overwrite (l.place f) new) g = if g = f then new else l.piece bytes g := by
  have inside : l.place f + new.length ≤ bytes.length := by
    have := h.inside f
    omega
  by_cases same : g = f
  · rw [if_pos same, same, piece, ← size, Bytes.cut_overwrite inside]
  · have apart := h.apart same
    rw [if_neg same, piece, piece, Bytes.cut_overwrite_apart inside (by omega)]

/-- Bytes with fields written one after the other. -/
def written (l : Layout) (piece : Field → Bytes) (fs : List Field) (bytes : Bytes) : Bytes :=
  fs.foldl (fun bytes f => bytes.overwrite (l.place f) (piece f)) bytes

theorem length_written (h : l.Regular) (size : ∀ f, (piece f).length = l.room f)
    (fs : List Field) {bytes : Bytes} (whole : bytes.length = l.total.toNat) :
    (l.written piece fs bytes).length = l.total.toNat := by
  induction fs generalizing bytes with
  | nil => exact whole
  | cons f fs ih =>
    have inside : l.place f + (piece f).length ≤ bytes.length := by
      have := h.inside f
      have := size f
      omega
    exact ih (by rw [Bytes.length_overwrite inside, whole])

/-- **Written fields.** A field that was written holds what was written, any other one what it
held. -/
theorem piece_written (h : l.Regular) (size : ∀ f, (piece f).length = l.room f) {fs : List Field}
    (nodup : fs.Nodup) {bytes : Bytes} (whole : bytes.length = l.total.toNat) (g : Field) :
    l.piece (l.written piece fs bytes) g = if g ∈ fs then piece g else l.piece bytes g := by
  induction fs generalizing bytes with
  | nil => rfl
  | cons f fs ih =>
    obtain ⟨fresh, nodup⟩ := List.nodup_cons.mp nodup
    have inside : l.place f + (piece f).length ≤ bytes.length := by
      have := h.inside f
      have := size f
      omega
    have next : (bytes.overwrite (l.place f) (piece f)).length = l.total.toNat := by
      rw [Bytes.length_overwrite inside, whole]
    refine (ih nodup next).trans ?_
    rw [piece_overwrite h whole (size f)]
    by_cases same : g = f
    · subst same
      simp [fresh]
    · simp [same]

end Layout

/-! ## Members in range -/

namespace Sketch

theorem element_eq_ok {n : Int} {p : Bytes} :
    element (.int n) = .ok p ↔ (0 ≤ n ∧ n < 2 ^ 64) ∧ p = Digits.carried n.toNat := by
  show (if 0 ≤ n ∧ n < (twoTo 64 : ℕ) then Except.ok (Bytes.ofNatLE 8 n.toNat)
    else .error (Failure.elementTooWide (.int n))) = _ ↔ _
  rw [twoTo_cast]
  split <;> simp_all [eq_comm]

theorem elements_eq_ok {ns : List Int} {p : Bytes} :
    elements (ns.map Value.int) = .ok p ↔
      (∀ n ∈ ns, 0 ≤ n ∧ n < 2 ^ 64) ∧ p = (ns.map Int.toNat).flatMap Digits.carried := by
  induction ns generalizing p with
  | nil => simp [elements, eq_comm]
  | cons n ns ih =>
    rw [List.map_cons, elements, bind_eq_ok]
    simp only [bind_eq_ok, element_eq_ok, ih, List.forall_mem_cons, List.map_cons,
      List.flatMap_cons]
    constructor
    · rintro ⟨first, ⟨here, rfl⟩, rest, ⟨there, rfl⟩, joined⟩
      cases joined
      exact ⟨⟨here, there⟩, rfl⟩
    · rintro ⟨⟨here, there⟩, rfl⟩
      exact ⟨_, ⟨here, rfl⟩, _, ⟨there, rfl⟩, rfl⟩

theorem amountElements_eq_ok {n : Int} {p : Bytes} :
    amountElements (.int n) = .ok p ↔
      (0 ≤ n ∧ n < 2 ^ 256) ∧ p = (Digits.limbs n.toNat).flatMap Digits.carried := by
  have limbs : (List.range 8).flatMap (fun i =>
      Bytes.ofNatLE 8 (n.toNat / twoTo (32 * i) % twoTo 32)) =
      (Digits.limbs n.toNat).flatMap Digits.carried := by
    rw [Digits.limbs, List.flatMap_map]
    rfl
  rw [← limbs]
  show (if 0 ≤ n ∧ n < (twoTo 256 : ℕ) then Except.ok _
    else .error (Failure.numberTooWide (.int n))) = _ ↔ _
  rw [twoTo_cast]
  split <;> simp_all [eq_comm]

theorem hashBytes_eq_ok {n : Int} {p : Bytes} :
    hashBytes (.int n) = .ok p ↔ (0 ≤ n ∧ n < 2 ^ 256) ∧ p = Bytes.ofNatBE 32 n.toNat := by
  show (if 0 ≤ n ∧ n < (twoTo 256 : ℕ) then Except.ok (Bytes.ofNatBE 32 n.toNat)
    else .error Failure.hashTooWide) = _ ↔ _
  rw [twoTo_cast]
  split <;> simp_all [eq_comm]

theorem addressElements_eq_ok {t : Text} {p : Bytes} :
    addressElements (.text t) = .ok p ↔
      ∃ a, Address.ofText? t = some a ∧ p = leftPaddedElements a.toBytes := by
  rw [addressElements, bind_eq_ok]
  show (∃ a, Address.normalizeText t = .ok a ∧ _) ↔ _
  simp only [Address.normalizeText_eq_ok_iff]
  constructor
  · rintro ⟨a, spelled, same⟩
    cases same
    exact ⟨a, spelled, rfl⟩
  · rintro ⟨a, spelled, rfl⟩
    exact ⟨a, spelled, rfl⟩

theorem checkBlock_eq_ok {field : Checked} {n : Int} :
    checkBlock field (.int n) = .ok () ↔ n < 2 ^ 32 := by
  show (if decide ((twoTo 32 : ℕ) ≤ n) = true then Except.error (Failure.blockTooWide field)
    else .ok ()) = _ ↔ _
  rw [twoTo_cast]
  split <;> simp_all

theorem checkIds_eq_ok {ns : List Int} :
    checkIds (ns.map Value.int) = .ok () ↔ ∀ n ∈ ns, 0 ≤ n ∧ n < 2 ^ 32 := by
  induction ns with
  | nil => simp [checkIds]
  | cons n ns ih =>
    rw [List.map_cons, List.forall_mem_cons, ← ih]
    show (if n < 0 ∨ (twoTo 32 : ℕ) ≤ n then Except.error Failure.idTooWide
      else checkIds (ns.map Value.int)) = _ ↔ _
    rw [twoTo_cast]
    split
    · next wide =>
      constructor
      · intro h
        cases h
      · rintro ⟨narrow, _⟩
        omega
    · next narrow =>
      constructor
      · intro rest
        exact ⟨by omega, rest⟩
      · exact fun h => h.2

theorem checkRanges_eq_ok {s : Statement} {l : Layout} :
    s.sketch.checkRanges l = .ok () ↔
      (s.nftIds.length : Int) = l.ids ∧ s.minBlock < 2 ^ 32 ∧ s.maxBlock < 2 ^ 32 ∧
        ∀ n ∈ s.nftIds, 0 ≤ n ∧ n < 2 ^ 32 := by
  have count : s.sketch.nftIds.length = s.nftIds.length := List.length_map ..
  rw [checkRanges, count]
  by_cases due : Int.ofNat s.nftIds.length = l.ids
  · rw [if_neg (not_not_intro due)]
    show ((checkBlock .minBlock (.int s.minBlock) >>= fun _ =>
      checkBlock .maxBlock (.int s.maxBlock) >>= fun _ =>
        checkIds (s.nftIds.map Value.int)) = _) ↔ _
    have same : (s.nftIds.length : Int) = l.ids := due
    simp only [bind_eq_ok, checkIds_eq_ok, same, true_and]
    constructor
    · rintro ⟨_, minBlock, _, maxBlock, ids⟩
      exact ⟨checkBlock_eq_ok.mp minBlock, checkBlock_eq_ok.mp maxBlock, ids⟩
    · rintro ⟨minBlock, maxBlock, ids⟩
      exact ⟨(), checkBlock_eq_ok.mpr minBlock, (), checkBlock_eq_ok.mpr maxBlock, ids⟩
  · rw [if_pos due]
    constructor
    · intro h
      cases h
    · rintro ⟨same, _⟩
      exact absurd same due

/-! ## Fields in a row -/

theorem writeSpan_eq_ok {s : Span} {piece bytes out : Bytes} :
    writeSpan s piece bytes = .ok out ↔
      (piece.length : Int) = s.length ∧ out = bytes.overwrite s.offset.toNat piece := by
  rw [writeSpan]
  by_cases fills : Int.ofNat piece.length = s.length
  · have same : (piece.length : Int) = s.length := fills
    simp [same, eq_comm]
  · have differs : ¬ (piece.length : Int) = s.length := fills
    simp [differs]

/-- Fields are written if each is made of elements that fill its span. -/
theorem writeFields_of_pieces {s : Sketch} {l : Layout} {piece : Field → Bytes} {fs : List Field}
    (h : ∀ f ∈ fs, s.fieldElements f = .ok (piece f) ∧
      ((piece f).length : Int) = (l.span f).length) (bytes : Bytes) :
    s.writeFields l fs bytes = .ok (l.written piece fs bytes) := by
  induction fs generalizing bytes with
  | nil => rfl
  | cons f fs ih =>
    rw [List.forall_mem_cons] at h
    obtain ⟨made, fills⟩ := h.1
    rw [writeFields, made, ok_bind, writeSpan_eq_ok.mpr ⟨fills, rfl⟩, ok_bind, ih h.2]
    rfl

theorem pieces_of_writeFields {s : Sketch} {l : Layout} {fs : List Field} {bytes out : Bytes}
    (h : s.writeFields l fs bytes = .ok out) :
    ∀ f ∈ fs, ∃ piece, s.fieldElements f = .ok piece ∧
      (piece.length : Int) = (l.span f).length := by
  induction fs generalizing bytes with
  | nil => simp
  | cons f fs ih =>
    simp only [writeFields, bind_eq_ok, writeSpan_eq_ok] at h
    obtain ⟨piece, made, _, ⟨fills, rfl⟩, rest⟩ := h
    rw [List.forall_mem_cons]
    exact ⟨⟨piece, made, fills⟩, ih rest⟩

end Sketch

/-! ## Statements -/

namespace Statement

/-- A statement whose members fit their fields, with as many ids as there is room for; `contract`
and `user` are the addresses that it spells. -/
structure Writable (s : Statement) (ids : Int) (contract user : Address) : Prop where
  count : (s.nftIds.length : Int) = ids
  blockNumber : 0 ≤ s.blockNumber ∧ s.blockNumber < 2 ^ 64
  range : 0 ≤ s.range ∧ s.range < 2 ^ 64
  minBlock : 0 ≤ s.minBlock ∧ s.minBlock < 2 ^ 32
  maxBlock : 0 ≤ s.maxBlock ∧ s.maxBlock < 2 ^ 32
  contract : Address.ofText? s.contract = some contract
  user : Address.ofText? s.user = some user
  mappingSlot : 0 ≤ s.mappingSlot ∧ s.mappingSlot < 2 ^ 64
  mappingSlotLength : 0 ≤ s.mappingSlotLength ∧ s.mappingSlotLength < 2 ^ 64
  nftIds : ∀ n ∈ s.nftIds, 0 ≤ n ∧ n < 2 ^ 32
  blockHash : 0 ≤ s.blockHash ∧ s.blockHash < 2 ^ 256
  rewardsRate : 0 ≤ s.rewardsRate ∧ s.rewardsRate < 2 ^ 256
  erc20Result : 0 ≤ s.erc20Result ∧ s.erc20Result < 2 ^ 256
  identifier : 0 ≤ s.identifier ∧ s.identifier < 2 ^ 64

/-- The bytes of each field of a statement. -/
def pieces (s : Statement) (contract user : Address) : Field → Bytes
  | .blockNumber => Digits.carried s.blockNumber.toNat
  | .range => Digits.carried s.range.toNat
  | .minBlock => Digits.carried s.minBlock.toNat
  | .maxBlock => Digits.carried s.maxBlock.toNat
  | .contract => Sketch.leftPaddedElements contract.toBytes
  | .user => Sketch.leftPaddedElements user.toBytes
  | .mappingSlot => Digits.carried s.mappingSlot.toNat
  | .mappingSlotLength => Digits.carried s.mappingSlotLength.toNat
  | .nftIds => (s.nftIds.map Int.toNat).flatMap Digits.carried
  | .blockHash => Sketch.leftPaddedElements (Bytes.ofNatBE 32 s.blockHash.toNat)
  | .rewardsRate => (Digits.limbs s.rewardsRate.toNat).flatMap Digits.carried
  | .erc20Result => (Digits.limbs s.erc20Result.toNat).flatMap Digits.carried
  | .identifier => Digits.carried s.identifier.toNat

variable {s : Statement} {contract user : Address} {ids : Int}

theorem length_pieces (count : (s.nftIds.length : Int) = ids) (f : Field) :
    (s.pieces contract user f).length = 8 * (f.digits ids).toNat := by
  have element (n : ℕ) : (Digits.carried n).length = 8 * 1 := Bytes.length_ofNatLE ..
  have account (a : Address) : (Sketch.leftPaddedElements a.toBytes).length = 8 * 5 :=
    Digits.length_leftPaddedElements a.length_toBytes
  have amount (n : ℕ) : ((Digits.limbs n).flatMap Digits.carried).length = 8 * 8 := by
    rw [Digits.length_carried, Digits.length_limbs]
  cases f
  case contract => exact account contract
  case user => exact account user
  case nftIds =>
    show ((s.nftIds.map Int.toNat).flatMap Digits.carried).length = 8 * ids.toNat
    rw [Digits.length_carried, List.length_map]
    omega
  case blockHash => exact Digits.length_leftPaddedElements (Bytes.length_ofNatBE ..)
  case rewardsRate => exact amount _
  case erc20Result => exact amount _
  all_goals exact element _

/-- Members in range are made into elements. -/
theorem Writable.fieldElements (h : s.Writable ids contract user) (f : Field) :
    s.sketch.fieldElements f = .ok (s.pieces contract user f) := by
  cases f
  case blockNumber => exact Sketch.element_eq_ok.mpr ⟨h.blockNumber, rfl⟩
  case range => exact Sketch.element_eq_ok.mpr ⟨h.range, rfl⟩
  case minBlock => exact Sketch.element_eq_ok.mpr ⟨by have := h.minBlock; omega, rfl⟩
  case maxBlock => exact Sketch.element_eq_ok.mpr ⟨by have := h.maxBlock; omega, rfl⟩
  case contract => exact Sketch.addressElements_eq_ok.mpr ⟨contract, h.contract, rfl⟩
  case user => exact Sketch.addressElements_eq_ok.mpr ⟨user, h.user, rfl⟩
  case mappingSlot => exact Sketch.element_eq_ok.mpr ⟨h.mappingSlot, rfl⟩
  case mappingSlotLength => exact Sketch.element_eq_ok.mpr ⟨h.mappingSlotLength, rfl⟩
  case nftIds =>
    refine Sketch.elements_eq_ok.mpr ⟨fun n hn => ?_, rfl⟩
    have := h.nftIds n hn
    omega
  case blockHash =>
    show (Sketch.hashBytes (.int s.blockHash)).map Sketch.leftPaddedElements = _
    rw [Sketch.hashBytes_eq_ok.mpr ⟨h.blockHash, rfl⟩]
    rfl
  case rewardsRate => exact Sketch.amountElements_eq_ok.mpr ⟨h.rewardsRate, rfl⟩
  case erc20Result => exact Sketch.amountElements_eq_ok.mpr ⟨h.erc20Result, rfl⟩
  case identifier => exact Sketch.element_eq_ok.mpr ⟨h.identifier, rfl⟩

/-- Nothing else is made into elements behind the checks. -/
theorem writable_of_fieldElements {l : Layout} (ranges : s.sketch.checkRanges l = .ok ())
    (made : ∀ f, ∃ piece, s.sketch.fieldElements f = .ok piece) :
    ∃ contract user, s.Writable l.ids contract user := by
  obtain ⟨count, minBlock, maxBlock, nftIds⟩ := Sketch.checkRanges_eq_ok.mp ranges
  have element {f : Field} {n : Int} (is : s.sketch.fieldElements f = Sketch.element (.int n)) :
      0 ≤ n ∧ n < 2 ^ 64 := by
    obtain ⟨piece, h⟩ := made f
    rw [is] at h
    exact (Sketch.element_eq_ok.mp h).1
  have amount {f : Field} {n : Int}
      (is : s.sketch.fieldElements f = Sketch.amountElements (.int n)) : 0 ≤ n ∧ n < 2 ^ 256 := by
    obtain ⟨piece, h⟩ := made f
    rw [is] at h
    exact (Sketch.amountElements_eq_ok.mp h).1
  have account {f : Field} {t : Text}
      (is : s.sketch.fieldElements f = Sketch.addressElements (.text t)) :
      ∃ a, Address.ofText? t = some a := by
    obtain ⟨piece, h⟩ := made f
    rw [is] at h
    obtain ⟨a, spelled, _⟩ := Sketch.addressElements_eq_ok.mp h
    exact ⟨a, spelled⟩
  have blockHash : 0 ≤ s.blockHash ∧ s.blockHash < 2 ^ 256 := by
    obtain ⟨piece, h⟩ := made .blockHash
    obtain ⟨bs, hash, _⟩ := map_eq_ok.mp h
    exact (Sketch.hashBytes_eq_ok.mp hash).1
  obtain ⟨contract, contractSpelled⟩ := account (f := .contract) rfl
  obtain ⟨user, userSpelled⟩ := account (f := .user) rfl
  exact ⟨contract, user,
    { count, nftIds, blockHash
      blockNumber := element (f := .blockNumber) rfl
      range := element (f := .range) rfl
      minBlock := ⟨(element (f := .minBlock) rfl).1, minBlock⟩
      maxBlock := ⟨(element (f := .maxBlock) rfl).1, maxBlock⟩
      contract := contractSpelled
      user := userSpelled
      mappingSlot := element (f := .mappingSlot) rfl
      mappingSlotLength := element (f := .mappingSlotLength) rfl
      rewardsRate := amount (f := .rewardsRate) rfl
      erc20Result := amount (f := .erc20Result) rfl
      identifier := element (f := .identifier) rfl }⟩

/-- **What is written.** A statement is written if its members are in range and the layout is
regular, and only then; each field is put at its place among zeros. -/
theorem encode_eq_ok_iff {l : Layout} {data : Bytes} :
    s.encode l = .ok data ↔ l.Regular ∧ ∃ contract user, s.Writable l.ids contract user ∧
      data = l.written (s.pieces contract user) Field.all (Bytes.zeros l.total.toNat) := by
  rw [encode, Sketch.encode, bind_eq_ok]
  constructor
  · rintro ⟨_, ranges, fields⟩
    have made := Sketch.pieces_of_writeFields fields
    obtain ⟨contract, user, writable⟩ := writable_of_fieldElements ranges fun f => by
      obtain ⟨piece, elements, _⟩ := made f (Field.mem_all f)
      exact ⟨piece, elements⟩
    have fills (f : Field) : ((s.pieces contract user f).length : Int) = (l.span f).length := by
      obtain ⟨piece, elements, fills⟩ := made f (Field.mem_all f)
      rw [writable.fieldElements f] at elements
      cases elements
      exact fills
    have ids : 0 ≤ l.ids := by
      have := writable.count
      omega
    refine ⟨⟨ids, fun f => ?_⟩, contract, user, writable, ?_⟩
    · have size := fills f
      have digits := Field.digits_nonneg ids f
      rw [length_pieces writable.count, Span.length] at size
      omega
    · rw [Sketch.writeFields_of_pieces fun f _ => ⟨writable.fieldElements f, fills f⟩] at fields
      cases fields
      rfl
  · rintro ⟨regular, contract, user, writable, rfl⟩
    refine ⟨(), ?_, ?_⟩
    · exact Sketch.checkRanges_eq_ok.mpr ⟨writable.count, writable.minBlock.2, writable.maxBlock.2,
        writable.nftIds⟩
    · refine Sketch.writeFields_of_pieces (fun f _ => ⟨writable.fieldElements f, ?_⟩) _
      rw [length_pieces writable.count, regular.length, Layout.room]

end Statement

end ProofGate
