import ProofGate.Proofs.Guard
import ProofGate.Proofs.Statement.Members
import ProofGate.Proofs.Statement.Reading
import ProofGate.Proofs.Statement.Writing

/-!
# Statements that are not written

Everything that keeps a statement from being written is a bound on one of its members. The bounds are
checked in a row, first those of the ids and the blocks and then those of each field, and the first
that does not hold is the failure. Of a statement that was described most of them hold anyway: what
is left is the number of ids, and how wide the ids, the blocks and the numbers of one element are.
-/

namespace ProofGate

namespace Statement

/-! ## Bounds -/

/-- The bound of a number that takes one element. -/
def elementBound (n : ℤ) : Guard :=
  .demand (0 ≤ n ∧ n < 2 ^ 64) (.elementTooWide (.int n))

def amountBound (n : ℤ) : Guard :=
  .demand (0 ≤ n ∧ n < 2 ^ 256) (.numberTooWide (.int n))

def hashBound (n : ℤ) : Guard :=
  .demand (0 ≤ n ∧ n < 2 ^ 256) .hashTooWide

/-- The bounds that are checked before anything is written. A block below zero is let through. -/
def ranges (s : Statement) (ids : ℤ) : List Guard :=
  .demand ((s.nftIds.length : ℤ) = ids) (.idCount ids s.nftIds.length) ::
    .demand (s.minBlock < 2 ^ 32) (.blockTooWide .minBlock) ::
      .demand (s.maxBlock < 2 ^ 32) (.blockTooWide .maxBlock) ::
        s.nftIds.map fun n => .demand (0 ≤ n ∧ n < 2 ^ 32) .idTooWide

/-- The bounds that are checked while a field is made into elements. -/
def bounds (s : Statement) : Field → List Guard
  | .blockNumber => [elementBound s.blockNumber]
  | .range => [elementBound s.range]
  | .minBlock => [elementBound s.minBlock]
  | .maxBlock => [elementBound s.maxBlock]
  | .contract => []
  | .user => []
  | .mappingSlot => [elementBound s.mappingSlot]
  | .mappingSlotLength => [elementBound s.mappingSlotLength]
  | .nftIds => s.nftIds.map elementBound
  | .blockHash => [hashBound s.blockHash]
  | .rewardsRate => [amountBound s.rewardsRate]
  | .erc20Result => [amountBound s.erc20Result]
  | .identifier => [elementBound s.identifier]

/-- All bounds in the order in which they are checked. -/
def checks (s : Statement) (ids : ℤ) : List Guard :=
  s.ranges ids ++ Field.all.flatMap s.bounds

end Statement

/-! ## Writing as a row of checks -/

namespace Sketch

open Statement (elementBound amountBound hashBound)

variable {s : Statement} {l : Layout}

theorem element_eq (n : ℤ) :
    element (.int n) = (Guard.verdict [elementBound n]).map fun _ => Digits.carried n.toNat := by
  rw [elementBound, Guard.verdict_demand]
  show (if 0 ≤ n ∧ n < (twoTo 64 : ℕ) then Except.ok (Bytes.ofNatLE 8 n.toNat)
    else .error (Failure.elementTooWide (.int n))) = _
  rw [twoTo_cast]
  split <;> rfl

theorem amountElements_eq (n : ℤ) :
    amountElements (.int n) = (Guard.verdict [amountBound n]).map fun _ =>
      (Digits.limbs n.toNat).flatMap Digits.carried := by
  rw [amountBound, Guard.verdict_demand]
  split
  · next range => exact amountElements_eq_ok.mpr ⟨range, rfl⟩
  · next wide =>
    show (if 0 ≤ n ∧ n < (twoTo 256 : ℕ) then _ else Except.error (Failure.numberTooWide (.int n))) = _
    rw [twoTo_cast, if_neg wide]
    rfl

theorem hashBytes_eq (n : ℤ) :
    hashBytes (.int n) = (Guard.verdict [hashBound n]).map fun _ => Bytes.ofNatBE 32 n.toNat := by
  rw [hashBound, Guard.verdict_demand]
  show (if 0 ≤ n ∧ n < (twoTo 256 : ℕ) then Except.ok (Bytes.ofNatBE 32 n.toNat)
    else .error Failure.hashTooWide) = _
  rw [twoTo_cast]
  split <;> rfl

theorem elements_eq (ns : List ℤ) :
    elements (ns.map Value.int) = (Guard.verdict (ns.map elementBound)).map fun _ =>
      (ns.map Int.toNat).flatMap Digits.carried := by
  induction ns with
  | nil => rfl
  | cons n ns ih =>
    simp only [List.map_cons]
    rw [elements, ih, element_eq, Guard.verdict_cons _ (ns.map elementBound)]
    cases Guard.verdict [elementBound n] with
    | error e => rfl
    | ok _ => cases Guard.verdict (ns.map elementBound) <;> rfl

theorem checkBlock_eq (field : Checked) (n : ℤ) :
    checkBlock field (.int n) =
      Guard.verdict [.demand (n < 2 ^ 32) (.blockTooWide field)] := by
  rw [Guard.verdict_demand]
  show (if decide ((twoTo 32 : ℕ) ≤ n) = true then Except.error (Failure.blockTooWide field)
    else .ok ()) = _
  rw [twoTo_cast]
  by_cases narrow : n < 2 ^ 32
  · rw [if_pos narrow, if_neg (by simpa using narrow)]
    rfl
  · rw [if_neg narrow, if_pos (by simpa using narrow)]

theorem checkIds_eq (ns : List ℤ) :
    checkIds (ns.map Value.int) =
      Guard.verdict (ns.map fun n => .demand (0 ≤ n ∧ n < 2 ^ 32) .idTooWide) := by
  induction ns with
  | nil => rfl
  | cons n ns ih =>
    rw [List.map_cons, List.map_cons, Guard.verdict_demand, ← ih]
    show (if n < 0 ∨ (twoTo 32 : ℕ) ≤ n then Except.error Failure.idTooWide
      else checkIds (ns.map Value.int)) = _
    rw [twoTo_cast]
    by_cases narrow : 0 ≤ n ∧ n < 2 ^ 32
    · rw [if_pos narrow, if_neg (by omega)]
    · rw [if_neg narrow, if_pos (by omega)]

theorem checkRanges_eq : s.sketch.checkRanges l = Guard.verdict (s.ranges l.ids) := by
  have count : s.sketch.nftIds.length = s.nftIds.length := List.length_map ..
  rw [checkRanges, count, Statement.ranges, Guard.verdict_demand]
  by_cases due : (s.nftIds.length : ℤ) = l.ids
  · have same : Int.ofNat s.nftIds.length = l.ids := due
    rw [if_neg (not_not_intro same), if_pos due, Guard.verdict_cons, ← checkBlock_eq,
      Guard.verdict_cons, ← checkBlock_eq, ← checkIds_eq]
    rfl
  · have differs : Int.ofNat s.nftIds.length ≠ l.ids := due
    rw [if_pos differs, if_neg due]
    rfl

/-- Fields are made and written one after the other until a bound of one does not hold. -/
theorem writeFields_eq {s : Sketch} {guards : Field → List Guard} {piece : Field → Bytes}
    (made : ∀ f, s.fieldElements f = (Guard.verdict (guards f)).map fun _ => piece f)
    (fills : ∀ f, ((piece f).length : ℤ) = (l.span f).length) (fs : List Field) (bytes : Bytes) :
    s.writeFields l fs bytes =
      (Guard.verdict (fs.flatMap guards)).map fun _ => l.written piece fs bytes := by
  induction fs generalizing bytes with
  | nil => rfl
  | cons f fs ih =>
    rw [writeFields, made, List.flatMap_cons, Guard.verdict_append]
    cases Guard.verdict (guards f) with
    | error e => rfl
    | ok _ =>
      rw [map_ok, ok_bind, ok_bind, writeSpan_eq_ok.mpr ⟨fills f, rfl⟩, ok_bind, ih]
      rfl

end Sketch

namespace Statement

variable {s : Statement} {l : Layout} {contract user : Address}

theorem fieldElements_eq (hasContract : Address.ofText? s.contract = some contract)
    (hasUser : Address.ofText? s.user = some user) (f : Field) :
    s.sketch.fieldElements f =
      (Guard.verdict (s.bounds f)).map fun _ => s.pieces contract user f := by
  cases f
  case contract => exact Sketch.addressElements_eq_ok.mpr ⟨contract, hasContract, rfl⟩
  case user => exact Sketch.addressElements_eq_ok.mpr ⟨user, hasUser, rfl⟩
  case nftIds => exact Sketch.elements_eq _
  case blockHash =>
    show (Sketch.hashBytes (.int s.blockHash)).map Sketch.leftPaddedElements = _
    rw [Sketch.hashBytes_eq, bounds]
    cases Guard.verdict [hashBound s.blockHash] <;> rfl
  case rewardsRate => exact Sketch.amountElements_eq _
  case erc20Result => exact Sketch.amountElements_eq _
  all_goals exact Sketch.element_eq _

/-- **Checks in a row.** A statement with readable account ids is written in any regular layout as
far as its bounds hold, and the first that does not is the failure. -/
theorem encode_eq (regular : l.Regular) (hasContract : Address.ofText? s.contract = some contract)
    (hasUser : Address.ofText? s.user = some user) :
    s.encode l = (Guard.verdict (s.checks l.ids)).map fun _ =>
      l.written (s.pieces contract user) Field.all (Bytes.zeros l.total.toNat) := by
  rw [encode, Sketch.encode, Sketch.checkRanges_eq, checks, Guard.verdict_append]
  cases ranges : Guard.verdict (s.ranges l.ids) with
  | error e => rfl
  | ok _ =>
    have count : (s.nftIds.length : ℤ) = l.ids :=
      of_decide_eq_true (Guard.verdict_eq_ok_iff.mp ranges _ List.mem_cons_self)
    have fills (f : Field) : ((s.pieces contract user f).length : ℤ) = (l.span f).length := by
      rw [length_pieces count, regular.length, Layout.room]
    rw [ok_bind, ok_bind]
    exact Sketch.writeFields_eq (fieldElements_eq hasContract hasUser) fills _ _

/-- The failure of every check is a bad value, apart from the one of a hash that is too wide. -/
theorem kind_of_mem_checks {ids : ℤ} {g : Guard} (inside : g ∈ s.checks ids) :
    g.failure.kind = .value ∨ g = hashBound s.blockHash := by
  rw [checks, List.mem_append] at inside
  rcases inside with range | field
  · simp only [ranges, List.mem_cons, List.mem_map] at range
    rcases range with rfl | rfl | rfl | ⟨n, _, rfl⟩
    all_goals exact Or.inl rfl
  · obtain ⟨f, _, inside⟩ := List.mem_flatMap.mp field
    cases f
    case contract => cases inside
    case user => cases inside
    case nftIds =>
      obtain ⟨n, _, rfl⟩ := List.mem_map.mp inside
      exact Or.inl rfl
    case blockHash => exact Or.inr (List.mem_singleton.mp inside)
    all_goals exact Or.inl (List.mem_singleton.mp inside ▸ rfl)

/-! ## Described statements -/

/-- What is left to check of a statement that was described. -/
structure Fits (s : Statement) : Prop where
  count : s.nftIds.length = 5
  nftIds : ∀ n ∈ s.nftIds, n < 2 ^ 32
  minBlock : s.minBlock < 2 ^ 32
  maxBlock : s.maxBlock < 2 ^ 32
  blockNumber : s.blockNumber < 2 ^ 64
  range : s.range < 2 ^ 64
  mappingSlot : s.mappingSlot < 2 ^ 64
  mappingSlotLength : s.mappingSlotLength < 2 ^ 64

variable {ms : List (Text × Value)}

theorem Taken.range {v : Option Value} {n : Option ℤ} (taken : Taken v n) :
    0 ≤ n.getD 0 ∧ n.getD 0 < 2 ^ 256 := by
  cases taken with
  | @given _ n _ small =>
    have bound : (n : ℤ) < 2 ^ 256 := by exact_mod_cast small
    exact ⟨Int.natCast_nonneg n, bound⟩
  | left => decide

theorem Describes.range [Address.CaseRule] (describes : Describes ms s) :
    ∀ m ∈ s.numbers, 0 ≤ m.2 ∧ m.2 < 2 ^ 256 := by
  intro m hm
  obtain ⟨n, taken, same⟩ := describes.numbers m hm
  rw [same]
  exact taken.range

theorem Writes.nonneg {vs : List Value} {ns : List ℤ} (writes : Writes vs ns) :
    ∀ n ∈ ns, 0 ≤ n := by
  induction writes with
  | nil => simp
  | cons first _ ih =>
    rw [List.forall_mem_cons]
    exact ⟨first.range.1, ih⟩

theorem Listed.nonneg {v : Option Value} {ns : List ℤ} (listed : Listed v ns) :
    ∀ n ∈ ns, 0 ≤ n := by
  cases listed with
  | given _ writes => exact writes.nonneg
  | left => simp

theorem Describes.spelled [Address.CaseRule] (describes : Describes ms s) :
    ∃ contract user, Address.ofText? s.contract = some contract ∧
      Address.ofText? s.user = some user := by
  obtain ⟨_, contract, _, _, hasContract⟩ := describes.contract
  obtain ⟨_, user, _, _, hasUser⟩ := describes.user
  rw [hasContract, hasUser]
  exact ⟨contract, user, Address.ofText_checksum _, Address.ofText_checksum _⟩

/-- A statement that was described is in range if it fits, for the rest is known of it. -/
theorem Describes.writable_iff [Address.CaseRule] (describes : Describes ms s) :
    (∃ contract user, s.Writable 5 contract user) ↔ s.Fits := by
  constructor
  · rintro ⟨_, _, writable⟩
    exact
      { count := Int.natCast_inj.mp writable.count
        nftIds := fun n hn => (writable.nftIds n hn).2
        minBlock := writable.minBlock.2
        maxBlock := writable.maxBlock.2
        blockNumber := writable.blockNumber.2
        range := writable.range.2
        mappingSlot := writable.mappingSlot.2
        mappingSlotLength := writable.mappingSlotLength.2 }
  · intro fits
    have range := describes.range
    simp only [Statement.numbers, List.forall_mem_cons] at range
    obtain ⟨minBlock, maxBlock, blockHash, rewardsRate, erc20Result, blockNumber, span, mappingSlot,
      mappingSlotLength, _⟩ := range
    obtain ⟨contract, user, hasContract, hasUser⟩ := describes.spelled
    obtain ⟨_, t, _, _, tag⟩ := describes.identifier
    refine ⟨contract, user, ?_⟩
    exact
      { count := congrArg Nat.cast fits.count
        blockNumber := ⟨blockNumber.1, fits.blockNumber⟩
        range := ⟨span.1, fits.range⟩
        minBlock := ⟨minBlock.1, fits.minBlock⟩
        maxBlock := ⟨maxBlock.1, fits.maxBlock⟩
        contract := hasContract
        user := hasUser
        mappingSlot := ⟨mappingSlot.1, fits.mappingSlot⟩
        mappingSlotLength := ⟨mappingSlotLength.1, fits.mappingSlotLength⟩
        nftIds := fun n hn => ⟨describes.nftIds.nonneg n hn, fits.nftIds n hn⟩
        blockHash := blockHash
        rewardsRate := rewardsRate
        erc20Result := erc20Result
        identifier := by
          rw [tag]
          cases t <;> decide }

/-- The hash of a statement that was described is not too wide, so what it is told is a bad value. -/
theorem Describes.kind_of_verdict [Address.CaseRule] (describes : Describes ms s) {ids : ℤ}
    {e : Failure} (refused : Guard.verdict (s.checks ids) = .error e) : e.kind = .value := by
  obtain ⟨before, g, behind, row, _, rejects, rfl⟩ := Guard.verdict_eq_error.mp refused
  have inside : g ∈ s.checks ids := by rw [row]; simp
  rcases kind_of_mem_checks inside with value | rfl
  · exact value
  · have hash : ("block_hash", s.blockHash) ∈ s.numbers := by simp [Statement.numbers]
    exact absurd (describes.range _ hash) (of_decide_eq_false rejects)

theorem describes_of_ofValue [Address.CaseRule] {v : Value} (described : ofValue v = .ok s) :
    ∃ ms, v = .object ms ∧ Describes ms s := by
  cases v with
  | object ms => exact ⟨ms, rfl, ofMembers_eq_ok_iff.mp described⟩
  | null | bool | int | float | text | bytes | list => cases described

/-- **Statements that fit.** A statement that was described is written exactly if it has five ids and
neither they, the blocks nor the numbers of one element are too wide. Otherwise nothing is written,
and a bad value is told: the first in the row of checks that does not pass. -/
theorem fits_or_refused [Address.CaseRule] {v : Value} (described : ofValue v = .ok s) :
    ((∃ data, s.encode Layout.standard = .ok data) ↔ s.Fits) ∧
      (¬ s.Fits → ∃ e, s.encode Layout.standard = .error e ∧ e.kind = .value ∧
        Guard.verdict (s.checks 5) = .error e) := by
  obtain ⟨ms, rfl, describes⟩ := describes_of_ofValue described
  obtain ⟨contract, user, hasContract, hasUser⟩ := describes.spelled
  have row := encode_eq Layout.regular_standard hasContract hasUser
  have written : (∃ data, s.encode Layout.standard = .ok data) ↔ s.Fits := by
    rw [← describes.writable_iff]
    constructor
    · rintro ⟨data, encoded⟩
      obtain ⟨_, contract, user, writable, _⟩ := encode_eq_ok_iff.mp encoded
      exact ⟨contract, user, writable⟩
    · rintro ⟨contract, user, writable⟩
      exact ⟨_, encode_eq_ok_iff.mpr ⟨Layout.regular_standard, contract, user, writable, rfl⟩⟩
  refine ⟨written, fun unfit => ?_⟩
  cases verdict : Guard.verdict (s.checks Layout.standard.ids) with
  | ok _ =>
    rw [verdict] at row
    exact absurd (written.mp ⟨_, row⟩) unfit
  | error e =>
    rw [verdict] at row
    exact ⟨e, row, describes.kind_of_verdict verdict, verdict⟩

namespace Sample

/-- A description with a mapping slot, and without ids. -/
def slotted (slot : ℕ) : List (Text × Value) :=
  [("min_block_number", .int 1), ("max_block_number", .int 2),
    ("contract_address", .text (Address.ofNat 7).checksum),
    ("user_address", .text (Address.ofNat 8).checksum), ("identifier", .text "nft"),
    ("mapping_slot", .int slot)]

def statedAt (slot : ℕ) : Statement where
  minBlock := 1
  maxBlock := 2
  contract := (Address.ofNat 7).checksum
  user := (Address.ofNat 8).checksum
  identifier := 67
  nftIds := List.replicate 5 0
  blockHash := 0
  rewardsRate := 0
  erc20Result := 0
  blockNumber := 0
  range := 0
  mappingSlot := slot
  mappingSlotLength := 0

theorem described_slotted [Address.CaseRule] {slot : ℕ} (small : slot < 2 ^ 256) :
    ofValue (.object (slotted slot)) = .ok (statedAt slot) := by
  refine ofMembers_eq_ok_iff.mpr ⟨?numbers, ?blocks, ?contract, ?user, ?identifier, .left⟩
  case numbers =>
    simp only [numbers, List.forall_mem_cons]
    exact ⟨⟨_, .given (n := 1) .int (by decide), rfl⟩, ⟨_, .given (n := 2) .int (by decide), rfl⟩,
      ⟨_, .left, rfl⟩, ⟨_, .left, rfl⟩, ⟨_, .left, rfl⟩, ⟨_, .left, rfl⟩, ⟨_, .left, rfl⟩,
      ⟨_, .given .int small, rfl⟩, ⟨_, .left, rfl⟩, by simp⟩
  case blocks =>
    simp only [requiredNumbers, List.forall_mem_cons]
    exact ⟨Option.some_ne_none _, Option.some_ne_none _, by simp⟩
  case contract => exact ⟨_, _, rfl, .checksum rfl, rfl⟩
  case user => exact ⟨_, _, rfl, .checksum rfl, rfl⟩
  case identifier => exact ⟨_, .nft, rfl, rfl, rfl⟩

end Sample

/-- A mapping slot of 64 bits is the last one that is written. -/
theorem fits_or_refused_sample :
    (∃ data, (Sample.statedAt (2 ^ 64 - 1)).encode Layout.standard = .ok data) ∧
      (Sample.statedAt (2 ^ 64)).encode Layout.standard =
        .error (.elementTooWide (.int (2 ^ 64))) := by
  let rule : Address.CaseRule := .checksum
  have narrow : 2 ^ 64 - 1 < 2 ^ 256 := by decide
  have wide : 2 ^ 64 < 2 ^ 256 := by decide
  obtain ⟨written, _⟩ := fits_or_refused (Sample.described_slotted narrow)
  obtain ⟨_, refused⟩ := fits_or_refused (Sample.described_slotted wide)
  have unfit : ¬ (Sample.statedAt (2 ^ 64)).Fits := fun fits => absurd fits.mappingSlot (by decide)
  obtain ⟨e, encoded, _, first⟩ := refused unfit
  have verdict : Guard.verdict ((Sample.statedAt (2 ^ 64)).checks 5) =
      .error (.elementTooWide (.int (2 ^ 64))) := by rfl
  cases first.symm.trans verdict
  refine ⟨written.mpr ?_, encoded⟩
  constructor <;> decide

end Statement

end ProofGate
