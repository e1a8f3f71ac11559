import ProofGate.Proofs.Bundle.Forms
import ProofGate.Proofs.Command.Queries
import ProofGate.Proofs.Member

/-!
# Reading queries

Members are read as a query exactly if each writes the query's own number or account id, and all else
is told as a bad value. A query is written in such members, so it is read back, and so are its
members in any other of their forms.
-/

namespace ProofGate

/-! ## Literals and names -/

/-- No name of a tag begins with a figure. -/
theorem Tag.ofName_of_figure {d : ℕ} (small : d < 10) {cs : List Char}
    (plain : ∀ c ∈ Numeral.digit d :: cs, 48 ≤ c.toNat ∧ c.toNat ≤ 122) :
    ofName? (Text.ofChars (Numeral.digit d :: cs)) = none := by
  have figures : ∀ d < 10, Text.upperChar (Numeral.digit d) = [Numeral.digit d] ∧
      Numeral.digit d ≠ 'N' ∧ Numeral.digit d ≠ 'E' := by decide
  obtain ⟨upper, nft, erc20⟩ := figures d small
  have begins : Text.upper (Text.trim (Text.ofChars (Numeral.digit d :: cs))) =
      .char (Numeral.digit d) :: Text.upper (Text.ofChars cs) := by
    rw [Literal.trim_of_codes plain]
    show Text.ofChars (Text.upperChar (Numeral.digit d)) ++ Text.upper (Text.ofChars cs) = _
    rw [upper]
    rfl
  rw [ofName?, List.find?_eq_none]
  intro t _
  rw [begins, beq_iff_eq]
  intro same
  cases t with
  | nft => exact nft (Point.char.inj (List.cons.inj same).1)
  | erc20 => exact erc20 (Point.char.inj (List.cons.inj same).1)

namespace Bundle

/-- A text that writes a number begins with a figure, and figures or letters follow. -/
theorem Spelled.figure {n : ℕ} {t : Text} (spelled : Spelled n (.text t)) :
    ∃ d < 10, ∃ cs, t = Text.ofChars (Numeral.digit d :: cs) ∧
      ∀ c ∈ Numeral.digit d :: cs, 48 ≤ c.toNat ∧ c.toNat ≤ 122 := by
  cases spelled with
  | decimal =>
    have codes : ∀ d < 10, 48 ≤ (Numeral.digit d).toNat ∧ (Numeral.digit d).toNat ≤ 122 := by
      decide
    have figures := Numeral.eq_digit_of_mem (b := 10) (by decide) n
    rw [Numeral.ofNat, Text.ofString, String.toList_ofList]
    cases written : Numeral.digits 10 n with
    | nil => exact absurd written (Numeral.digits_ne_nil 10 n)
    | cons c cs =>
      rw [written] at figures
      obtain ⟨d, small, rfl⟩ := figures c List.mem_cons_self
      refine ⟨d, small, cs, rfl, fun c hc => ?_⟩
      obtain ⟨e, below, rfl⟩ := figures c hc
      exact codes e below
  | @marked m base cs ds mark counts _ _ =>
    refine ⟨0, by decide, m :: cs, rfl, ?_⟩
    rw [List.forall_mem_cons, List.forall_mem_cons]
    refine ⟨by decide, by cases mark <;> decide, fun c hc => ?_⟩
    obtain ⟨d, value⟩ := Option.isSome_iff_exists.mp (Literal.isSome_of_counts counts c hc)
    exact Literal.toNat_of_digitValue value

/-- A number in one of its forms is not taken for the name of a tag. -/
theorem Spelled.resolveTag {n : ℕ} {v : Value} (spelled : Spelled n v) :
    Query.resolveTag v = v := by
  cases v with
  | text t =>
    obtain ⟨d, small, cs, rfl, plain⟩ := spelled.figure
    simp only [Query.resolveTag, Tag.ofName_of_figure small plain]
  | null | bool | int | float | bytes | list | object => rfl

/-- Every form of a number is read as that number. -/
theorem Spelled.counted {n : ℕ} (small : n < 2 ^ 256) {v : Value} (spelled : Spelled n v) :
    Member.Counted n v := by
  have element := elementOf_spelled small spelled
  cases v with
  | int m =>
    cases element
    exact .int
  | text t =>
    obtain ⟨d, _, cs, rfl, plain⟩ := spelled.figure
    refine .text ?_
    rw [Literal.trim_of_codes plain]
    unfold elementOf at element
    split at element
    · next same =>
      cases same
      split at element
      · next read =>
        cases element
        exact read
      · cases element
    · next other => exact absurd rfl (other _)
  | null | bool | float | bytes | list | object => cases spelled

/-- The text of a hash is one of the forms of its number. -/
theorem spelled_hashText {n : ℕ} (small : n < 2 ^ 256) :
    Spelled n (.text (Query.hashText n)) := by
  obtain ⟨ds, counts, value⟩ := Hex.counts_digits (Bytes.ofNatBE 32 n)
  have some : Hex.digits (Bytes.ofNatBE 32 n) ≠ [] := by
    refine List.ne_nil_of_length_pos ?_
    rw [Hex.length_digits, Bytes.length_ofNatBE]
    decide
  refine .marked .x counts some ?_
  have wide : n < 256 ^ 32 := small
  rw [value, Bytes.natBE_ofNatBE, Nat.mod_eq_of_lt wide]

end Bundle

namespace Query

/-! ## Members -/

theorem wide_eq_ok_iff {name : String} {v : Value} {n : BitVec 256} :
    wide name v = .ok n ↔ Member.Counted n.toNat v := by
  rw [wide, bind_eq_ok]
  simp only [Member.number_eq_ok_iff]
  constructor
  · rintro ⟨m, ⟨counted, bound⟩, read⟩
    cases read
    rw [BitVec.toNat_ofNat, Nat.mod_eq_of_lt bound]
    exact counted
  · intro counted
    refine ⟨n.toNat, ⟨counted, n.isLt⟩, ?_⟩
    rw [BitVec.ofNat_toNat, BitVec.setWidth_eq]
    rfl

theorem block_eq_ok_iff {name : String} {v : Value} {n : BitVec 32} :
    block name v = .ok n ↔ Member.Counted n.toNat v := by
  rw [block, bind_eq_ok]
  simp only [Member.number_eq_ok_iff]
  constructor
  · rintro ⟨m, ⟨counted, _⟩, read⟩
    split at read
    · next small =>
      cases read
      have bound : m < 2 ^ 32 := small
      rw [BitVec.toNat_ofNat, Nat.mod_eq_of_lt bound]
      exact counted
    · cases read
  · intro counted
    have bound : n.toNat < twoTo 32 := n.isLt
    refine ⟨n.toNat, ⟨counted, lt_trans n.isLt (by norm_num)⟩, ?_⟩
    rw [if_pos bound, BitVec.ofNat_toNat, BitVec.setWidth_eq]
    rfl

section

variable [Address.CaseRule]

/-- What members have to be to be read as a query. A client that is not named is the user, and a rate
that is not named is zero. -/
structure Asks (ms : List (Text × Value)) (q : Query) : Prop where
  contract : ∃ v, Value.find? ms "contract_address" = some v ∧
    Address.Accepted q.contract.bits.toNat v
  user : ∃ v, Value.find? ms "user_address" = some v ∧ Address.Accepted q.user.bits.toNat v
  client : match Value.find? ms "client_address" with
    | some v => Address.Accepted q.client.bits.toNat v
    | none => q.client = q.user
  minBlock : ∃ v, Value.find? ms "min_block_number" = some v ∧ Member.Counted q.minBlock.toNat v
  maxBlock : ∃ v, Value.find? ms "max_block_number" = some v ∧ Member.Counted q.maxBlock.toNat v
  blockHash : ∃ v, Value.find? ms "block_hash" = some v ∧ Member.Counted q.blockHash.toNat v
  rewardsRate : match Value.find? ms "rewards_rate" with
    | some v => Member.Counted q.rewardsRate.toNat v
    | none => q.rewardsRate = 0
  identifier : ∃ v, Value.find? ms "identifier" = some v ∧
    Member.Counted q.identifier.toNat (resolveTag v)

/-- **Reading.** A query is read exactly from the members that ask it. -/
theorem ofMembers_eq_ok_iff {ms : List (Text × Value)} {q : Query} :
    ofMembers ms = .ok q ↔ Asks ms q := by
  rw [ofMembers, bind_eq_ok]
  simp only [draft_eq_ok_iff, check_eq_ok, Member.address_eq_ok_iff, block_eq_ok_iff,
    wide_eq_ok_iff]
  constructor
  · rintro ⟨d, picked, contract, user, client, minBlock, maxBlock, blockHash, rewardsRate,
      identifier⟩
    refine ⟨⟨_, picked.contract, contract⟩, ⟨_, picked.user, user⟩, ?client,
      ⟨_, picked.minBlock, minBlock⟩, ⟨_, picked.maxBlock, maxBlock⟩,
      ⟨_, picked.blockHash, blockHash⟩, ?rate, ⟨_, picked.identifier, identifier⟩⟩
    case client =>
      rw [← picked.client] at client
      cases named : Value.find? ms "client_address" with
      | some v => rwa [named] at client
      | none =>
        rw [named] at client
        exact Address.toNat_inj.mp (Member.accepted_unique client user)
    case rate =>
      rw [← picked.rewardsRate] at rewardsRate
      cases named : Value.find? ms "rewards_rate" with
      | some v => rwa [named] at rewardsRate
      | none =>
        rw [named] at rewardsRate
        have zero := Member.counted_unique rewardsRate .int
        exact BitVec.toNat_inj.mp (Int.natCast_inj.mp zero)
  · intro asks
    obtain ⟨contract, hcontract, writesContract⟩ := asks.contract
    obtain ⟨user, huser, writesUser⟩ := asks.user
    obtain ⟨minBlock, hminBlock, countsMin⟩ := asks.minBlock
    obtain ⟨maxBlock, hmaxBlock, countsMax⟩ := asks.maxBlock
    obtain ⟨blockHash, hblockHash, countsHash⟩ := asks.blockHash
    obtain ⟨identifier, hidentifier, countsIdentifier⟩ := asks.identifier
    refine ⟨⟨contract, user, (Value.find? ms "client_address").getD user, minBlock, maxBlock,
      blockHash, (Value.find? ms "rewards_rate").getD (.int 0), identifier⟩,
      ⟨hcontract, huser, rfl, hminBlock, hmaxBlock, hblockHash, rfl, hidentifier⟩,
      writesContract, writesUser, ?client, countsMin, countsMax, countsHash, ?rate,
      countsIdentifier⟩
    case client =>
      have given := asks.client
      cases named : Value.find? ms "client_address" with
      | some v => rwa [named] at given
      | none =>
        rw [named] at given
        dsimp only at given
        rwa [given]
    case rate =>
      have given := asks.rewardsRate
      cases named : Value.find? ms "rewards_rate" with
      | some v => rwa [named] at given
      | none =>
        rw [named] at given
        dsimp only at given
        rw [given]
        exact .int

/-! ## Failures -/

omit [Address.CaseRule] in
theorem tells_block (name : String) (v : Value) : Tells (· = .value) (block name v) := by
  refine (Member.tells_number name v).bind fun n => ?_
  split
  · exact tells_ok _
  · exact tells_error rfl

omit [Address.CaseRule] in
theorem tells_wide (name : String) (v : Value) : Tells (· = .value) (wide name v) :=
  (Member.tells_number name v).bind fun _ => tells_ok _

/-- What is wrong with members is told as a bad value. -/
theorem tells_ofMembers (ms : List (Text × Value)) : Tells (· = .value) (ofMembers ms) := by
  have need (name : String) : Tells (· = .value)
      (match Value.find? ms name with
        | some v => .ok v
        | none => .error (.queryMemberMissing name) : Except Failure Value) := by
    split
    · exact tells_ok _
    · exact tells_error rfl
  refine Tells.bind ?drafts fun d => ?checks
  case drafts =>
    exact (need _).bind fun _ => (need _).bind fun _ => (need _).bind fun _ =>
      (need _).bind fun _ => (need _).bind fun _ => (need _).bind fun _ => tells_ok _
  case checks =>
    exact (Member.tells_address _ _).bind fun _ => (Member.tells_address _ _).bind fun _ =>
      (Member.tells_address _ _).bind fun _ => (tells_block _ _).bind fun _ =>
      (tells_block _ _).bind fun _ => (tells_wide _ _).bind fun _ => (tells_wide _ _).bind fun _ =>
      (tells_wide _ _).bind fun _ => tells_ok _

end

/-! ## Members of a query -/

/-- Members as a query has them: its addresses in checksum form, and its numbers in range. -/
structure Canonical (ms : List (Text × Value)) : Prop where
  addresses : ∀ name ∈ Loading.addressNames,
    ∃ a : Address, Value.find? ms name = some (.text a.checksum)
  blocks : ∀ name ∈ (["min_block_number", "max_block_number"] : List Text),
    ∃ n < 2 ^ 32, Value.find? ms name = some (.int (n : ℕ))
  hash : ∃ n < 2 ^ 256, Value.find? ms "block_hash" = some (.text (hashText n))
  numbers : ∀ name ∈ (["rewards_rate", "identifier"] : List Text),
    ∃ n < 2 ^ 256, Value.find? ms name = some (.int (n : ℕ))

theorem canonical_toMembers (q : Query) : Canonical q.toMembers := by
  constructor
  case addresses =>
    simp only [Loading.addressNames, List.forall_mem_cons]
    exact ⟨⟨q.contract, rfl⟩, ⟨q.user, rfl⟩, ⟨q.client, rfl⟩, by simp⟩
  case blocks =>
    simp only [List.forall_mem_cons]
    exact ⟨⟨_, q.minBlock.isLt, rfl⟩, ⟨_, q.maxBlock.isLt, rfl⟩, by simp⟩
  case hash => exact ⟨_, q.blockHash.isLt, rfl⟩
  case numbers =>
    simp only [List.forall_mem_cons]
    exact ⟨⟨_, q.rewardsRate.isLt, rfl⟩, ⟨_, q.identifier.isLt, rfl⟩, by simp⟩

section

variable [Address.CaseRule]

/-- The forms in which the members of a query may be given. -/
def forms (q : Query) : List (Text × (Value → Prop)) :=
  [("contract_address", Address.Accepted q.contract.bits.toNat),
    ("user_address", Address.Accepted q.user.bits.toNat),
    ("client_address", Address.Accepted q.client.bits.toNat),
    ("min_block_number", Bundle.Spelled q.minBlock.toNat),
    ("max_block_number", Bundle.Spelled q.maxBlock.toNat),
    ("block_hash", Bundle.Spelled q.blockHash.toNat),
    ("rewards_rate", Bundle.Spelled q.rewardsRate.toNat),
    ("identifier", Bundle.Spelled q.identifier.toNat)]

/-- The members of a query with each of them in any of its forms. -/
def Respelled (q : Query) : List (Text × Value) → Prop :=
  List.Forall₂ (fun form m => m.1 = form.1 ∧ form.2 m.2) q.forms

theorem respelled_toMembers (q : Query) : Respelled q q.toMembers := by
  have address (a : Address) : Address.Accepted a.bits.toNat (.text a.checksum) := .checksum rfl
  exact .cons ⟨rfl, address _⟩ (.cons ⟨rfl, address _⟩ (.cons ⟨rfl, address _⟩
    (.cons ⟨rfl, .number⟩ (.cons ⟨rfl, .number⟩
      (.cons ⟨rfl, Bundle.spelled_hashText q.blockHash.isLt⟩
        (.cons ⟨rfl, .number⟩ (.cons ⟨rfl, .number⟩ .nil)))))))

/-- Members in any of their forms ask the query. -/
theorem Respelled.asks {q : Query} {ms : List (Text × Value)} (respelled : Respelled q ms) :
    Asks ms q := by
  simp only [Respelled, forms, List.forall₂_cons_left_iff, List.forall₂_nil_left_iff, Prod.exists]
    at respelled
  obtain ⟨_, contract, _, ⟨rfl, isContract⟩, ⟨_, user, _, ⟨rfl, isUser⟩,
    ⟨_, client, _, ⟨rfl, isClient⟩, ⟨_, minBlock, _, ⟨rfl, isMin⟩,
    ⟨_, maxBlock, _, ⟨rfl, isMax⟩, ⟨_, blockHash, _, ⟨rfl, isHash⟩,
    ⟨_, rewardsRate, _, ⟨rfl, isRate⟩, ⟨_, identifier, _, ⟨rfl, isIdentifier⟩,
    rfl, rfl⟩, rfl⟩, rfl⟩, rfl⟩, rfl⟩, rfl⟩, rfl⟩, rfl⟩ := respelled
  have block (n : BitVec 32) : n.toNat < 2 ^ 256 := lt_trans n.isLt (by norm_num)
  refine ⟨⟨contract, rfl, isContract⟩, ⟨user, rfl, isUser⟩, isClient,
    ⟨minBlock, rfl, isMin.counted (block _)⟩, ⟨maxBlock, rfl, isMax.counted (block _)⟩,
    ⟨blockHash, rfl, isHash.counted q.blockHash.isLt⟩, isRate.counted q.rewardsRate.isLt,
    ⟨identifier, rfl, ?_⟩⟩
  rw [isIdentifier.resolveTag]
  exact isIdentifier.counted q.identifier.isLt

end

end Query

namespace Sample

/-- A query of which every number is another. -/
def manifold : Query where
  contract := .ofNat 0xABCDEF
  user := .ofNat 7
  client := .ofNat 7
  minBlock := 5
  maxBlock := 9
  blockHash := 255
  rewardsRate := 8
  identifier := 67

/-- Its members in other forms: capitals behind a capital mark, bytes and bare digits, and literals
of all bases. -/
def respelled : List (Text × Value) :=
  [("contract_address",
      .text (Text.ofChars ('0' :: 'X' :: (List.replicate 34 '0' ++ "ABCDEF".toList)))),
    ("user_address", .bytes (Bytes.zeros 19 ++ [7])),
    ("client_address", .text (Text.ofChars (List.replicate 39 '0' ++ ['7']))),
    ("min_block_number", .text (Numeral.ofNat 5)), ("max_block_number", .text "0b1001"),
    ("block_hash", .text "0XfF"), ("rewards_rate", .text "0o10"), ("identifier", .int 67)]

end Sample

namespace Query

/-- **Queries are read back.** Members either tell of a bad value or are a query's: the one that they
ask. Each of its members says what the member given did; a client that is not named is the user, and
a rate that is not named zero. The members of a query, in any of their forms, are that query's. Which
forms of an address are accepted depends on the rule for its letters. -/
theorem ofMembers_lossless [Address.CaseRule] :
    (∀ ms, (∃ e, ofMembers ms = .error e ∧ e.kind = .value) ∨
      ∃ q, ofMembers ms = .ok q ∧ Canonical q.toMembers) ∧
    (∀ ms q, ofMembers ms = .ok q ↔ Asks ms q) ∧
    ∀ q, ofMembers q.toMembers = .ok q ∧ Respelled q q.toMembers ∧
      ∀ ms, Respelled q ms → ofMembers ms = .ok q := by
  refine ⟨fun ms => ?_, fun ms q => ofMembers_eq_ok_iff, fun q => ?_⟩
  · cases read : ofMembers ms with
    | error e => exact Or.inl ⟨e, rfl, tells_ofMembers ms e read⟩
    | ok q => exact Or.inr ⟨q, rfl, q.canonical_toMembers⟩
  · have written := q.respelled_toMembers
    exact ⟨ofMembers_eq_ok_iff.mpr written.asks, written,
      fun ms respelled => ofMembers_eq_ok_iff.mpr respelled.asks⟩

/-- A query whose members are given in other forms than its own, under the stricter rule. -/
theorem ofMembers_lossless_sample :
    @ofMembers .checksum Sample.respelled = .ok Sample.manifold := by
  let rule : Address.CaseRule := .checksum
  have contract : Address.Accepted 0xABCDEF
      (.text (Text.ofChars ('0' :: 'X' :: (List.replicate 34 '0' ++ "ABCDEF".toList)))) :=
    .uniform (.capital ⟨rfl, List.all_eq_true.mp rfl, rfl⟩) (Address.isUniform_iff.mp rfl)
  have client : Address.Accepted 7 (.text (Text.ofChars (List.replicate 39 '0' ++ ['7']))) :=
    .uniform (.bare ⟨rfl, List.all_eq_true.mp rfl, rfl⟩) (Address.isUniform_iff.mp rfl)
  have binary : Bundle.Spelled 9 (.text "0b1001") :=
    .marked .b (.cons ⟨rfl, by decide⟩ (.cons ⟨rfl, by decide⟩ (.cons ⟨rfl, by decide⟩
      (.cons ⟨rfl, by decide⟩ .nil)))) (by decide) rfl
  have octal : Bundle.Spelled 8 (.text "0o10") :=
    .marked .o (.cons ⟨rfl, by decide⟩ (.cons ⟨rfl, by decide⟩ .nil)) (by decide) rfl
  have hexadecimal : Bundle.Spelled 255 (.text "0XfF") :=
    .marked .X (.cons ⟨rfl, by decide⟩ (.cons ⟨rfl, by decide⟩ .nil)) (by decide) rfl
  refine (ofMembers_lossless.2.2 Sample.manifold).2.2 Sample.respelled ?_
  exact .cons ⟨rfl, contract⟩ (.cons ⟨rfl, .bytes rfl (by decide)⟩ (.cons ⟨rfl, client⟩
    (.cons ⟨rfl, .decimal⟩ (.cons ⟨rfl, binary⟩ (.cons ⟨rfl, hexadecimal⟩
      (.cons ⟨rfl, octal⟩ (.cons ⟨rfl, .number⟩ .nil)))))))

end Query

end ProofGate
