import ProofGate.Proofs.Bundle.Malformed
import ProofGate.Proofs.Member
import ProofGate.Proofs.Tag
import ProofGate.Statement
import Mathlib.Data.List.Forall2

/-!
# Statements described

A statement is read from members in three ways: numbers are taken as far as they are there, account
ids and the tag have to be there, and the ids are whatever a value runs through. A member that is
there but unfit is told as a bad value or as an unsupported tag. Three things are not: an infinite
tag, ids that run through nothing, and blocks left out.
-/

namespace ProofGate

namespace Statement

/-! ## Members one after the other -/

/-- An account id under a name. -/
def located [Address.CaseRule] (ms : List (Text × Value)) (name : String) :
    Except Failure Address := do
  Member.address name (← need ms name)

def named (ms : List (Text × Value)) : Except Failure Tag := do
  Tag.parse (← need ms "identifier")

def listed (ms : List (Text × Value)) : Except Failure (List Int) :=
  match Value.find? ms "nft_ids" with
  | none => .ok (List.replicate Layout.idsInBundle 0)
  | some v => do readIds (← Member.elements v)

/-- The statement of numbers that were read, unless one is left out that has to be there. -/
def complete (numbers : List (String × Int)) (contract user : Address) (tag : Tag)
    (nftIds : List Int) : Except Failure Statement :=
  let missing := requiredNumbers.filter fun name => (numbers.lookup name).isNone
  if missing = [] then
    let number (name : String) : Int := (numbers.lookup name).getD 0
    .ok
      { minBlock := number "min_block_number"
        maxBlock := number "max_block_number"
        contract := contract.checksum
        user := user.checksum
        identifier := Int.ofNat tag.code
        nftIds
        blockHash := number "block_hash"
        rewardsRate := number "rewards_rate"
        erc20Result := number "erc20_result"
        blockNumber := number "block_number"
        range := number "range"
        mappingSlot := number "mapping_slot"
        mappingSlotLength := number "mapping_slot_length" }
  else .error (.argumentsMissing missing)

theorem ofMembers_eq [Address.CaseRule] (ms : List (Text × Value)) :
    ofMembers ms = (do
      let numbers ← readNumbers ms numberNames
      let contract ← located ms "contract_address"
      let user ← located ms "user_address"
      let tag ← named ms
      let nftIds ← listed ms
      complete numbers contract user tag nftIds) := by
  simp only [located, named, listed, bind_assoc]
  unfold ofMembers
  refine bind_congr fun numbers => bind_congr fun _ => bind_congr fun contract =>
    bind_congr fun _ => bind_congr fun user => bind_congr fun _ => bind_congr fun tag => ?_
  simp only [complete]
  generalize (requiredNumbers.filter fun name => (numbers.lookup name).isNone) = missing
  cases Value.find? ms "nft_ids" with
  | none => cases missing <;> rfl
  | some ids =>
    simp only [bind_assoc]
    refine bind_congr fun vs => bind_congr fun nftIds => ?_
    cases missing <;> rfl

/-! ## What is taken -/

/-- What is taken from a place: the number that a value there writes, or nothing if there is none. -/
inductive Taken : Option Value → Option Int → Prop where
  | given {v : Value} {n : ℕ} : Member.Counted n v → n < 2 ^ 256 → Taken (some v) (some n)
  | left : Taken none none

theorem Taken.unique {v : Option Value} {m n : Option Int} (first : Taken v m)
    (second : Taken v n) : m = n := by
  cases first with
  | left =>
    cases second
    rfl
  | given counted _ =>
    cases second with
    | given again _ => rw [Member.counted_unique counted again]

theorem Taken.isNone {v : Option Value} {n : Option Int} (taken : Taken v n) :
    n.isNone = v.isNone := by
  cases taken <;> rfl

/-- Values that write the numbers of a list. -/
abbrev Writes : List Value → List Int → Prop :=
  List.Forall₂ fun v n => Taken (some v) (some n)

/-- Numbers are read if each value that is there under their names writes one. -/
theorem readNumbers_isOk_iff {ms : List (Text × Value)} {names : List String} :
    (∃ numbers, readNumbers ms names = .ok numbers) ↔
      ∀ name ∈ names, ∃ n, Taken (Value.find? ms name) n := by
  induction names with
  | nil => simp [readNumbers]
  | cons name names ih =>
    rw [List.forall_mem_cons, ← ih, readNumbers]
    cases Value.find? ms name with
    | none => exact ⟨fun rest => ⟨⟨_, .left⟩, rest⟩, fun both => both.2⟩
    | some v =>
      dsimp only
      constructor
      · rintro ⟨_, read⟩
        obtain ⟨n, number, read⟩ := bind_eq_ok.mp read
        obtain ⟨rest, others, _⟩ := bind_eq_ok.mp read
        obtain ⟨counted, small⟩ := Member.number_eq_ok_iff.mp number
        exact ⟨⟨_, .given counted small⟩, rest, others⟩
      · rintro ⟨⟨_, ⟨counted, small⟩⟩, rest, others⟩
        rw [Member.number_eq_ok_iff.mpr ⟨counted, small⟩, others]
        exact ⟨_, rfl⟩

/-- Each number read is the one taken from under its name, and there are no others. -/
theorem lookup_readNumbers {ms : List (Text × Value)} {names : List String}
    {numbers : List (String × Int)} (read : readNumbers ms names = .ok numbers) (name : String) :
    (name ∈ names → Taken (Value.find? ms name) (numbers.lookup name)) ∧
      (name ∉ names → numbers.lookup name = none) := by
  induction names generalizing numbers with
  | nil =>
    cases read
    exact ⟨nofun, fun _ => rfl⟩
  | cons first names ih =>
    rw [readNumbers] at read
    cases held : Value.find? ms first with
    | none =>
      rw [held] at read
      obtain ⟨known, fresh⟩ := ih read
      refine ⟨fun inside => ?_, fun outside => fresh fun h => outside (List.mem_cons_of_mem _ h)⟩
      -- nothing is read for this name, so what is found of it belongs to a later one
      by_cases again : name ∈ names
      · exact known again
      · obtain rfl := (List.mem_cons.mp inside).resolve_right again
        rw [held, fresh again]
        exact .left
    | some v =>
      rw [held] at read
      obtain ⟨n, number, read⟩ := bind_eq_ok.mp read
      obtain ⟨rest, others, read⟩ := bind_eq_ok.mp read
      cases read
      obtain ⟨known, fresh⟩ := ih others
      obtain ⟨counted, small⟩ := Member.number_eq_ok_iff.mp number
      rw [List.lookup_cons]
      by_cases same : name = first
      · subst same
        rw [beq_self_eq_true, held]
        exact ⟨fun _ => .given counted small, fun outside => absurd List.mem_cons_self outside⟩
      · rw [beq_eq_false_iff_ne.mpr same, List.mem_cons, or_iff_right same]
        exact ⟨known, fresh⟩

theorem readIds_eq_ok_iff {vs : List Value} {ns : List Int} :
    readIds vs = .ok ns ↔ Writes vs ns := by
  constructor
  · intro read
    induction vs generalizing ns with
    | nil =>
      cases read
      exact .nil
    | cons v vs ih =>
      obtain ⟨n, number, read⟩ := bind_eq_ok.mp read
      obtain ⟨rest, others, read⟩ := bind_eq_ok.mp read
      cases read
      obtain ⟨counted, small⟩ := Member.number_eq_ok_iff.mp number
      exact .cons (.given counted small) (ih others)
  · intro writes
    induction writes with
    | nil => rfl
    | cons first _ ih =>
      obtain ⟨counted, small⟩ := first
      rw [readIds, Member.number_eq_ok_iff.mpr ⟨counted, small⟩, ok_bind, ih]
      rfl

theorem need_eq_ok_iff {ms : List (Text × Value)} {name : String} {v : Value} :
    need ms name = .ok v ↔ Value.find? ms name = some v := by
  unfold need
  split <;> simp_all

theorem located_eq_ok_iff [Address.CaseRule] {ms : List (Text × Value)} {name : String}
    {a : Address} :
    located ms name = .ok a ↔
      ∃ v, Value.find? ms name = some v ∧ Address.Accepted a.bits.toNat v := by
  simp only [located, bind_eq_ok, need_eq_ok_iff, Member.address_eq_ok_iff]

theorem named_eq_ok_iff {ms : List (Text × Value)} {t : Tag} :
    named ms = .ok t ↔ ∃ v, Value.find? ms "identifier" = some v ∧ Tag.parse v = .ok t := by
  simp only [named, bind_eq_ok, need_eq_ok_iff]

/-- The ids under their name: five zeros if they are left out. -/
inductive Listed : Option Value → List Int → Prop where
  | given {v : Value} {vs : List Value} {ns : List Int} : Member.elements v = .ok vs →
      Writes vs ns → Listed (some v) ns
  | left : Listed none (List.replicate 5 0)

theorem listed_eq_ok_iff {ms : List (Text × Value)} {ns : List Int} :
    listed ms = .ok ns ↔ Listed (Value.find? ms "nft_ids") ns := by
  unfold listed
  split
  · next absent =>
    have left : Value.find? ms "nft_ids" = none := absent
    rw [left]
    constructor
    · rintro ⟨⟩
      exact .left
    · rintro ⟨⟩
      rfl
  · next v there =>
    have given : Value.find? ms "nft_ids" = some v := there
    simp only [given, bind_eq_ok, readIds_eq_ok_iff]
    constructor
    · rintro ⟨vs, held, writes⟩
      exact .given held writes
    · rintro ⟨held, writes⟩
      exact ⟨_, held, writes⟩

/-! ## What is described -/

/-- The numbers of a statement under their names, in the order of their checks. -/
def numbers (s : Statement) : List (String × Int) :=
  [("min_block_number", s.minBlock), ("max_block_number", s.maxBlock),
    ("block_hash", s.blockHash), ("rewards_rate", s.rewardsRate),
    ("erc20_result", s.erc20Result), ("block_number", s.blockNumber), ("range", s.range),
    ("mapping_slot", s.mappingSlot), ("mapping_slot_length", s.mappingSlotLength)]

theorem names_numbers (s : Statement) : s.numbers.map Prod.fst = numberNames := rfl

/-- What members have to be to be read as a statement. -/
structure Describes [Address.CaseRule] (ms : List (Text × Value)) (s : Statement) : Prop where
  numbers : ∀ m ∈ s.numbers, ∃ n, Taken (Value.find? ms m.1) n ∧ m.2 = n.getD 0
  blocks : ∀ name ∈ requiredNumbers, Value.find? ms name ≠ none
  contract : ∃ (v : Value) (a : Address), Value.find? ms "contract_address" = some v ∧
    Address.Accepted a.bits.toNat v ∧ s.contract = a.checksum
  user : ∃ (v : Value) (a : Address), Value.find? ms "user_address" = some v ∧
    Address.Accepted a.bits.toNat v ∧ s.user = a.checksum
  identifier : ∃ (v : Value) (t : Tag), Value.find? ms "identifier" = some v ∧ Tag.parse v = .ok t ∧
    s.identifier = t.code
  nftIds : Listed (Value.find? ms "nft_ids") s.nftIds

/-- The blocks that are left out. -/
def missing (ms : List (Text × Value)) : List String :=
  requiredNumbers.filter fun name => (Value.find? ms name).isNone

theorem missing_readNumbers {ms : List (Text × Value)} {numbers : List (String × Int)}
    (read : readNumbers ms numberNames = .ok numbers) :
    (requiredNumbers.filter fun name => (numbers.lookup name).isNone) = missing ms := by
  apply List.filter_congr
  intro name required
  have known : ∀ name ∈ requiredNumbers, name ∈ numberNames := by decide
  exact ((lookup_readNumbers read name).1 (known name required)).isNone

theorem missing_eq_nil_iff {ms : List (Text × Value)} :
    missing ms = [] ↔ ∀ name ∈ requiredNumbers, Value.find? ms name ≠ none := by
  simp [missing, List.filter_eq_nil_iff]

/-- **Reading.** A statement is read exactly from the members that describe it. -/
theorem ofMembers_eq_ok_iff [Address.CaseRule] {ms : List (Text × Value)} {s : Statement} :
    ofMembers ms = .ok s ↔ Describes ms s := by
  rw [ofMembers_eq]
  constructor
  · intro read
    obtain ⟨numbers, readNumbers, read⟩ := bind_eq_ok.mp read
    obtain ⟨contract, readContract, read⟩ := bind_eq_ok.mp read
    obtain ⟨user, readUser, read⟩ := bind_eq_ok.mp read
    obtain ⟨tag, readTag, read⟩ := bind_eq_ok.mp read
    obtain ⟨nftIds, readIds, read⟩ := bind_eq_ok.mp read
    obtain ⟨v, foundContract, writesContract⟩ := located_eq_ok_iff.mp readContract
    obtain ⟨w, foundUser, writesUser⟩ := located_eq_ok_iff.mp readUser
    obtain ⟨t, foundTag, parsed⟩ := named_eq_ok_iff.mp readTag
    unfold complete at read
    dsimp only at read
    rw [missing_readNumbers readNumbers] at read
    split at read
    · next none =>
      cases read
      refine ⟨?numbers, missing_eq_nil_iff.mp none, ⟨v, contract, foundContract, writesContract, rfl⟩,
        ⟨w, user, foundUser, writesUser, rfl⟩, ⟨t, tag, foundTag, parsed, rfl⟩,
        listed_eq_ok_iff.mp readIds⟩
      case numbers =>
        have taken (name : String) (known : name ∈ numberNames) :=
          (lookup_readNumbers readNumbers name).1 known
        simp only [Statement.numbers, List.forall_mem_cons]
        refine ⟨⟨_, taken _ ?_, rfl⟩, ⟨_, taken _ ?_, rfl⟩, ⟨_, taken _ ?_, rfl⟩,
          ⟨_, taken _ ?_, rfl⟩, ⟨_, taken _ ?_, rfl⟩, ⟨_, taken _ ?_, rfl⟩, ⟨_, taken _ ?_, rfl⟩,
          ⟨_, taken _ ?_, rfl⟩, ⟨_, taken _ ?_, rfl⟩, by simp⟩
        all_goals decide
    · cases read
  · intro describes
    obtain ⟨numbers, readNumbers⟩ : ∃ numbers, readNumbers ms numberNames = .ok numbers := by
      rw [readNumbers_isOk_iff, ← names_numbers s, List.forall_mem_map]
      intro m hm
      obtain ⟨n, taken, _⟩ := describes.numbers m hm
      exact ⟨n, taken⟩
    obtain ⟨v, contract, foundContract, writesContract, saidContract⟩ := describes.contract
    obtain ⟨w, user, foundUser, writesUser, saidUser⟩ := describes.user
    obtain ⟨t, tag, foundTag, parsed, saidTag⟩ := describes.identifier
    have readContract := located_eq_ok_iff.mpr ⟨v, foundContract, writesContract⟩
    have readUser := located_eq_ok_iff.mpr ⟨w, foundUser, writesUser⟩
    have readTag := named_eq_ok_iff.mpr ⟨t, foundTag, parsed⟩
    have readIds := listed_eq_ok_iff.mpr describes.nftIds
    have said (m : String × Int) (hm : m ∈ s.numbers) : (numbers.lookup m.1).getD 0 = m.2 := by
      obtain ⟨n, taken, value⟩ := describes.numbers m hm
      have known : m.1 ∈ numberNames := List.mem_map_of_mem hm
      rw [value, ((lookup_readNumbers readNumbers m.1).1 known).unique taken]
    simp only [Statement.numbers, List.forall_mem_cons] at said
    obtain ⟨minBlock, maxBlock, blockHash, rewardsRate, erc20Result, blockNumber, range,
      mappingSlot, mappingSlotLength, _⟩ := said
    have code : Int.ofNat tag.code = s.identifier := saidTag.symm
    simp only [readNumbers, readContract, readUser, readTag, readIds, ok_bind, complete,
      missing_readNumbers readNumbers, if_pos (missing_eq_nil_iff.mpr describes.blocks), minBlock,
      maxBlock, blockHash, rewardsRate, erc20Result, blockNumber, range, mappingSlot,
      mappingSlotLength, code, ← saidContract, ← saidUser]

/-! ## Failures -/

/-- The kinds of failure that tell what is wrong with a description. -/
def Foreseen (k : Kind) : Prop :=
  k = .value ∨ k = .unsupportedTag

end Statement

theorem Tells.foreseen {α : Type} {r : Except Failure α} (tells : Tells (· = .value) r) :
    Tells Statement.Foreseen r :=
  tells.mono fun _ => Or.inl

namespace Tag

/-- A tag is read, or told to be unsupported, unless it is infinite. -/
theorem strays_parse {v : Value} {e : Failure} :
    Strays Statement.Foreseen (parse v) e ↔
      (∃ negative, v = .float (.infinite negative)) ∧ e = .infiniteNumber := by
  constructor
  · rintro ⟨failed, unforeseen⟩
    rcases parse_eq_error failed with rfl | ⟨rfl, infinite⟩
    · exact absurd (Or.inr rfl) unforeseen
    · exact ⟨infinite, rfl⟩
  · rintro ⟨⟨negative, rfl⟩, rfl⟩
    refine ⟨rfl, ?_⟩
    rintro (told | told) <;> cases told

end Tag

namespace Statement

variable {ms : List (Text × Value)} {e : Failure}

theorem tells_readNumbers (ms : List (Text × Value)) (names : List String) :
    Tells (· = .value) (readNumbers ms names) := by
  induction names with
  | nil => exact tells_ok _
  | cons name names ih =>
    rw [readNumbers]
    split
    · exact ih
    · exact (Member.tells_number _ _).bind fun _ => ih.bind fun _ => tells_ok _

theorem tells_readIds (vs : List Value) : Tells (· = .value) (readIds vs) := by
  induction vs with
  | nil => exact tells_ok _
  | cons v vs ih => exact (Member.tells_number _ _).bind fun _ => ih.bind fun _ => tells_ok _

theorem tells_need (ms : List (Text × Value)) (name : String) :
    Tells (· = .value) (need ms name) := by
  unfold need
  split
  · exact tells_ok _
  · exact tells_error rfl

theorem tells_located [Address.CaseRule] (ms : List (Text × Value)) (name : String) :
    Tells (· = .value) (located ms name) :=
  (tells_need ms name).bind fun _ => Member.tells_address _ _

theorem strays_named :
    Strays Foreseen (named ms) e ↔
      ∃ negative, Value.find? ms "identifier" = some (.float (.infinite negative)) ∧
        e = .infiniteNumber := by
  simp only [named, strays_bind, (tells_need ms "identifier").foreseen.not_strays, false_or,
    need_eq_ok_iff, Tag.strays_parse]
  constructor
  · rintro ⟨_, found, ⟨negative, rfl⟩, rfl⟩
    exact ⟨negative, found, rfl⟩
  · rintro ⟨negative, found, rfl⟩
    exact ⟨_, found, ⟨negative, rfl⟩, rfl⟩

theorem not_foreseen_of_type (kind : e.kind = .type) : ¬ Foreseen e.kind := by
  rw [kind]
  rintro (told | told) <;> cases told

theorem strays_listed :
    Strays Foreseen (listed ms) e ↔
      ∃ v, Value.find? ms "nft_ids" = some v ∧ v.Atomic ∧ e = .noElements v := by
  have elements (v : Value) : Strays Foreseen (Member.elements v) e ↔
      v.Atomic ∧ e = .noElements v := by
    rw [Strays, Member.elements_eq_error_iff, and_iff_left_iff_imp]
    rintro ⟨_, rfl⟩
    exact not_foreseen_of_type rfl
  unfold listed
  split
  · next absent =>
    have left : Value.find? ms "nft_ids" = none := absent
    simp [left, (tells_ok _).not_strays]
  · next v there =>
    have given : Value.find? ms "nft_ids" = some v := there
    simp only [given, strays_bind, elements, (tells_readIds _).foreseen.not_strays, and_false,
      exists_false, or_false, Option.some.injEq, exists_eq_left']

theorem strays_complete {numbers : List (String × Int)} {contract user : Address} {tag : Tag}
    {nftIds : List Int} (read : readNumbers ms numberNames = .ok numbers) :
    Strays Foreseen (complete numbers contract user tag nftIds) e ↔
      missing ms ≠ [] ∧ e = .argumentsMissing (missing ms) := by
  unfold complete
  dsimp only
  rw [missing_readNumbers read]
  by_cases all : missing ms = []
  · simp [all, (tells_ok _).not_strays]
  · rw [if_neg all, Strays]
    constructor
    · rintro ⟨⟨⟩, _⟩
      exact ⟨all, rfl⟩
    · rintro ⟨_, rfl⟩
      exact ⟨rfl, not_foreseen_of_type rfl⟩

/-! ## Failures that are not told -/

/-- The members that are looked at first, all of them in order: the numbers as far as they are there,
and the account ids. -/
structure Opened [Address.CaseRule] (ms : List (Text × Value)) : Prop where
  numbers : ∀ name ∈ numberNames, ∃ n, Taken (Value.find? ms name) n
  contract : ∃ (v : Value) (a : Address), Value.find? ms "contract_address" = some v ∧
    Address.Accepted a.bits.toNat v
  user : ∃ (v : Value) (a : Address), Value.find? ms "user_address" = some v ∧
    Address.Accepted a.bits.toNat v

def Tagged (ms : List (Text × Value)) : Prop :=
  ∃ v t, Value.find? ms "identifier" = some v ∧ Tag.parse v = .ok t

/-- The failures that are neither a bad value nor an unsupported tag. A member is looked at only if
those in front of it are in order. -/
inductive Escapes [Address.CaseRule] (ms : List (Text × Value)) : Failure → Prop where
  | tag {negative : Bool} : Opened ms →
      Value.find? ms "identifier" = some (.float (.infinite negative)) → Escapes ms .infiniteNumber
  | ids {v : Value} : Opened ms → Tagged ms → Value.find? ms "nft_ids" = some v → v.Atomic →
      Escapes ms (.noElements v)
  | blocks {ns : List Int} : Opened ms → Tagged ms → Listed (Value.find? ms "nft_ids") ns →
      missing ms ≠ [] → Escapes ms (.argumentsMissing (missing ms))

theorem Escapes.kind [Address.CaseRule] (escapes : Escapes ms e) :
    e.kind = .overflow ∨ e.kind = .type := by
  cases escapes with
  | tag => exact Or.inl rfl
  | ids => exact Or.inr rfl
  | blocks => exact Or.inr rfl

/-- **Descriptions.** What a description strays into is what escapes from one of its members. -/
theorem strays_ofMembers [Address.CaseRule] : Strays Foreseen (ofMembers ms) e ↔ Escapes ms e := by
  have numbers := (tells_readNumbers ms numberNames).foreseen
  have located (name : String) := (tells_located ms name).foreseen
  rw [ofMembers_eq]
  simp only [strays_bind, numbers.not_strays, (located _).not_strays, false_or, strays_named,
    strays_listed, located_eq_ok_iff, named_eq_ok_iff, listed_eq_ok_iff]
  constructor
  · rintro ⟨ns, read, contract, ⟨v, foundContract, writesContract⟩, user,
      ⟨w, foundUser, writesUser⟩, escapes⟩
    have opened : Opened ms := ⟨readNumbers_isOk_iff.mp ⟨ns, read⟩,
      ⟨v, contract, foundContract, writesContract⟩, ⟨w, user, foundUser, writesUser⟩⟩
    rcases escapes with ⟨negative, found, rfl⟩ | ⟨tag, ⟨t, foundTag, parsed⟩, escapes⟩
    · exact .tag opened found
    · have tagged : Tagged ms := ⟨t, tag, foundTag, parsed⟩
      rcases escapes with ⟨v, found, atomic, rfl⟩ | ⟨ids, listed, escapes⟩
      · exact .ids opened tagged found atomic
      · obtain ⟨some, rfl⟩ := (strays_complete read).mp escapes
        exact .blocks opened tagged listed some
  · intro escapes
    -- whatever escapes, the numbers and the account ids in front of it were read
    have behind (opened : Opened ms) {rest : List (String × Int) → Address → Address → Prop}
        (late : ∀ ns contract user, readNumbers ms numberNames = .ok ns → rest ns contract user) :
        ∃ ns, readNumbers ms numberNames = .ok ns ∧ ∃ contract : Address,
          (∃ v, Value.find? ms "contract_address" = some v ∧
            Address.Accepted contract.bits.toNat v) ∧ ∃ user : Address,
          (∃ v, Value.find? ms "user_address" = some v ∧
            Address.Accepted user.bits.toNat v) ∧ rest ns contract user := by
      obtain ⟨ns, read⟩ := readNumbers_isOk_iff.mpr opened.numbers
      obtain ⟨v, contract, foundContract, writesContract⟩ := opened.contract
      obtain ⟨w, user, foundUser, writesUser⟩ := opened.user
      exact ⟨ns, read, contract, ⟨v, foundContract, writesContract⟩, user,
        ⟨w, foundUser, writesUser⟩, late ns contract user read⟩
    cases escapes with
    | tag opened found => exact behind opened fun _ _ _ _ => Or.inl ⟨_, found, rfl⟩
    | ids opened tagged found atomic =>
      obtain ⟨t, tag, foundTag, parsed⟩ := tagged
      exact behind opened fun _ _ _ _ =>
        Or.inr ⟨tag, ⟨t, foundTag, parsed⟩, Or.inl ⟨_, found, atomic, rfl⟩⟩
    | blocks opened tagged listed some =>
      obtain ⟨t, tag, foundTag, parsed⟩ := tagged
      exact behind opened fun _ _ _ read =>
        Or.inr ⟨tag, ⟨t, foundTag, parsed⟩, Or.inr ⟨_, listed, (strays_complete read).mpr ⟨some, rfl⟩⟩⟩

/-! ## Members left out -/

/-- Members of which each is fit that is there. -/
structure Valid [Address.CaseRule] (ms : List (Text × Value)) : Prop where
  numbers : ∀ name ∈ numberNames, ∃ n, Taken (Value.find? ms name) n
  addresses : ∀ name ∈ ["contract_address", "user_address"], ∀ v,
    Value.find? ms (name : String) = some v → ∃ n, Address.Accepted n v
  identifier : ∀ v, Value.find? ms "identifier" = some v → ∃ t, Tag.parse v = .ok t
  nftIds : ∃ ns, Listed (Value.find? ms "nft_ids") ns

/-- The members that have to be there besides the blocks, in the order in which they are asked for. -/
def needed : List String :=
  ["contract_address", "user_address", "identifier"]

/-- The first of them that is left out. -/
def firstLeft (ms : List (Text × Value)) : Option String :=
  needed.find? fun name => (Value.find? ms name).isNone

theorem located_of_none [Address.CaseRule] {name : String} (left : Value.find? ms name = none) :
    located ms name = .error (.statementMemberMissing name) := by
  simp only [located, need, left, error_bind]

theorem Valid.located [Address.CaseRule] (valid : Valid ms) {name : String}
    (address : name ∈ ["contract_address", "user_address"]) {v : Value}
    (there : Value.find? ms name = some v) : ∃ a, located ms name = .ok a := by
  obtain ⟨n, accepted⟩ := valid.addresses name address v there
  obtain ⟨a, rfl⟩ := accepted.writes.exists_address
  exact ⟨a, located_eq_ok_iff.mpr ⟨v, there, accepted⟩⟩

/-- **Members left out.** Of members that are fit as far as they are there, an account id or the tag
that is left out is told by its name. If only blocks are left out that is told as missing arguments,
and if nothing is left out there is a statement. -/
theorem ofMembers_of_valid [Address.CaseRule] (valid : Valid ms) :
    (∀ name, firstLeft ms = some name →
      ofMembers ms = .error (.statementMemberMissing name)) ∧
    (firstLeft ms = none → missing ms ≠ [] →
      ofMembers ms = .error (.argumentsMissing (missing ms))) ∧
    (firstLeft ms = none → missing ms = [] → ∃ s, ofMembers ms = .ok s) := by
  obtain ⟨numbers, read⟩ := readNumbers_isOk_iff.mpr valid.numbers
  simp only [ofMembers_eq, read, ok_bind]
  unfold firstLeft needed
  cases contractThere : Value.find? ms "contract_address" with
  | none =>
    rw [located_of_none contractThere]
    simp [contractThere]
  | some v =>
  obtain ⟨contract, located⟩ := valid.located (by decide) contractThere
  simp only [located, ok_bind]
  cases userThere : Value.find? ms "user_address" with
  | none =>
    rw [located_of_none userThere]
    simp [contractThere, userThere]
  | some w =>
  obtain ⟨user, located⟩ := valid.located (by decide) userThere
  simp only [located, ok_bind]
  cases tagThere : Value.find? ms "identifier" with
  | none =>
    have named : named ms = .error (.statementMemberMissing "identifier") := by
      simp only [named, need, tagThere, error_bind]
    rw [named]
    simp [contractThere, userThere, tagThere]
  | some t =>
  obtain ⟨tag, parsed⟩ := valid.identifier t tagThere
  obtain ⟨ids, listed⟩ := valid.nftIds
  rw [named_eq_ok_iff.mpr ⟨t, tagThere, parsed⟩, listed_eq_ok_iff.mpr listed, ok_bind, ok_bind]
  unfold complete
  dsimp only
  rw [missing_readNumbers read]
  by_cases all : missing ms = []
  · simp [contractThere, userThere, tagThere, all]
  · simp [contractThere, userThere, tagThere, all]

end Statement

end ProofGate
