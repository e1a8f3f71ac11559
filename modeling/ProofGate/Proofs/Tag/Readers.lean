import ProofGate.Proofs.Query
import ProofGate.Proofs.Statement.Described
import ProofGate.Proofs.Statement.RoundTrip
import ProofGate.Proofs.Tag
import Mathlib.Data.List.TFAE

/-!
# Readers of a tag

A tag is read in three places: from a value, from the text of a value, and as the number that a query
holds. Of an integer and of a text, all three take the same tag. So the tag of a statement that is
written is the one that a query takes from the same member, and the one that is read back.
-/

namespace ProofGate

/-! ## Numerals -/

namespace Literal

theorem mem_ofInt {n : ℤ} {c : Char} (inside : c ∈ (Numeral.ofInt n).toList) :
    c = '-' ∨ (digitValue? c).isSome := by
  have figures (n : ℕ) : ∀ c ∈ (Numeral.ofNat n).toList, (digitValue? c).isSome := by
    obtain ⟨ds, counts, _⟩ := Numeral.counts_digits (b := 10) (by decide) (by decide) n
    rw [Numeral.ofNat, String.toList_ofList]
    exact isSome_of_counts counts
  cases n with
  | ofNat n => exact Or.inr (figures n c inside)
  | negSucc n =>
    have inside : c ∈ ("-" ++ Numeral.ofNat (n + 1)).toList := inside
    rw [String.toList_append, List.mem_append] at inside
    rcases inside with sign | figure
    · exact Or.inl (List.mem_singleton.mp sign)
    · exact Or.inr (figures _ c figure)

/-- The numeral of an integer has no blanks to trim. -/
theorem trim_ofInt (n : ℤ) :
    Text.trim (Text.ofString (Numeral.ofInt n)) = Text.ofString (Numeral.ofInt n) := by
  apply trimEnds_of_none
  rw [Text.ofString, Text.ofChars, List.forall_mem_map]
  intro c inside
  rcases mem_ofInt inside with rfl | figure
  · rfl
  · obtain ⟨d, value⟩ := Option.isSome_iff_exists.mp figure
    have range := toNat_of_digitValue value
    exact (not_blank_of_code range.1 range.2).1

end Literal

/-- Integers and texts, the forms in which the members of a query and a statement have a tag. -/
def Value.Simple : Value → Prop
  | .int _ => True
  | .text _ => True
  | _ => False

namespace Tag

variable {t : Tag} {v : Value}

/-! ## The text of a value -/

theorem parse_int_iff {n : ℤ} : parse (.int n) = .ok t ↔ n = t.code := by
  rw [parse_count_iff rfl]
  show (Double.exact n).rational? = _ ↔ _
  rw [Double.rational_exact, Option.some.injEq]
  exact_mod_cast Iff.rfl

/-- The numeral of an integer is the literal of one tag exactly if the integer is its number. -/
theorem parse_numeral_iff {n : ℤ} :
    parse (.text (Text.ofString (Numeral.ofInt n))) = .ok t ↔ n = t.code := by
  have denotes := Literal.denotes_ofInt n
  rw [parse_text_iff, Literal.trim_ofInt]
  constructor
  · rintro (named | again)
    · exact absurd denotes named.not_denotes
    · exact Literal.denotes_unique denotes again
  · rintro rfl
    exact Or.inr denotes

theorem parse_bare_iff (simple : v.Simple) : parse (.text v.bare) = .ok t ↔ parse v = .ok t := by
  cases v with
  | text s => exact Iff.rfl
  | int n => exact parse_numeral_iff.trans parse_int_iff.symm
  | null | bool | float | bytes | list | object => cases simple

theorem validate_eq_ok_iff : validate v = .ok t ↔ parse v = .ok t := by
  unfold validate
  split
  · next read => rw [read]
  · next failed =>
    rw [failed]
    split <;> simp

/-! ## The number of a query -/

theorem code_inj {t' : Tag} (same : t.code = t'.code) : t = t' := by
  cases t <;> cases t' <;> first | rfl | cases same

/-- What a query takes from an integer or a text counts the number of a tag exactly if it is read as
this tag. -/
theorem counted_resolveTag_iff (simple : v.Simple) :
    Member.Counted (t.code : ℤ) (Query.resolveTag v) ↔ parse v = .ok t := by
  cases v with
  | int n =>
    rw [parse_int_iff]
    constructor
    · intro counted
      cases counted
      rfl
    · rintro rfl
      exact .int
  | text s =>
    rw [parse_text_iff, ← ofName_eq_some_iff]
    unfold Query.resolveTag
    dsimp only
    cases name : ofName? s with
    | none =>
      rw [← read_eq_code_iff, or_iff_right nofun]
      constructor
      · intro counted
        cases counted with
        | text read => exact read
      · exact .text
    | some other =>
      rw [or_iff_left (ofName_eq_some_iff.mp name).not_denotes, Option.some.injEq]
      constructor
      · intro counted
        have same : (t.code : ℤ) = other.code := Member.counted_unique counted .int
        exact (code_inj (Int.natCast_inj.mp same)).symm
      · rintro rfl
        exact .int
  | null | bool | float | bytes | list | object => cases simple

/-- A query with another member for its tag. -/
theorem check_tagged_iff [Address.CaseRule] {d : Query.Draft} {q : Query} (valid : d.check = .ok q)
    (simple : v.Simple) :
    (∃ q', ({ d with identifier := v } : Query.Draft).check = .ok q' ∧
      q'.identifier.toNat = t.code) ↔ parse v = .ok t := by
  rw [← counted_resolveTag_iff simple]
  obtain ⟨contract, user, client, minBlock, maxBlock, blockHash, rewardsRate, _⟩ :=
    Query.check_eq_ok.mp valid
  constructor
  · rintro ⟨q', checked, tag⟩
    obtain ⟨_, _, _, _, _, _, _, identifier⟩ := Query.check_eq_ok.mp checked
    rw [← tag]
    exact Query.wide_eq_ok_iff.mp identifier
  · intro counted
    have small : t.code < 2 ^ 256 := lt_trans t.code_small (by norm_num)
    have tag : (BitVec.ofNat 256 t.code).toNat = t.code := Nat.mod_eq_of_lt small
    refine ⟨{ q with identifier := BitVec.ofNat 256 t.code }, ?_, tag⟩
    refine Query.check_eq_ok.mpr
      ⟨contract, user, client, minBlock, maxBlock, blockHash, rewardsRate, ?_⟩
    rw [Query.wide_eq_ok_iff, tag]
    exact counted

/-! ## One tag -/

/-- What was written is read back with the tag that was written. -/
theorem decode_tagged {l : Layout} {s : Statement} {data : Bytes} (encoded : s.encode l = .ok data)
    (tag : s.identifier = t.code) :
    ∃ s', Statement.decode data l = .ok s' ∧ s'.identifier = t.code := by
  obtain ⟨regular, contract, user, writable, rfl⟩ := Statement.encode_eq_ok_iff.mp encoded
  refine ⟨_, writable.decode_written regular, ?_⟩
  show s.identifier % 256 = t.code
  rw [tag]
  cases t <;> rfl

/-- **Tags agreed on.** Of an integer and of a text, a tag is taken from the value, from its text and
by an otherwise valid query exactly if it is taken by one of them. If the value is the tag of a
statement that is written, the query holds the tag that is read back. -/
theorem readers_agree [Address.CaseRule] (simple : v.Simple) {d : Query.Draft} {q : Query}
    (valid : d.check = .ok q) :
    (∀ t, List.TFAE [parse v = .ok t, validate (.text v.bare) = .ok t,
        ∃ q', ({ d with identifier := v } : Query.Draft).check = .ok q' ∧
          q'.identifier.toNat = t.code]) ∧
      ∀ (ms : List (Text × Value)) (s : Statement) (data : Bytes),
        Value.find? ms "identifier" = some v → Statement.ofMembers ms = .ok s →
        s.encode Layout.standard = .ok data →
        ∃ s' q', Statement.decode data Layout.standard = .ok s' ∧
          ({ d with identifier := v } : Query.Draft).check = .ok q' ∧
          (q'.identifier.toNat : ℤ) = s'.identifier ∧
          ∀ q, Query.ofMembers ms = .ok q → (q.identifier.toNat : ℤ) = s'.identifier := by
  constructor
  · intro t
    tfae_have 1 ↔ 2 := by rw [validate_eq_ok_iff, parse_bare_iff simple]
    tfae_have 3 ↔ 1 := check_tagged_iff valid simple
    tfae_finish
  · intro ms s data named described encoded
    obtain ⟨w, t, named', read, tag⟩ := (Statement.ofMembers_eq_ok_iff.mp described).identifier
    obtain rfl : v = w := Option.some.inj (named.symm.trans named')
    obtain ⟨s', decoded, kept⟩ := decode_tagged encoded tag
    obtain ⟨q', checked, holds⟩ := (check_tagged_iff valid simple).mpr read
    refine ⟨s', q', decoded, checked, ?_, fun q asked => ?_⟩
    · rw [holds, kept]
    · obtain ⟨w, named', counted⟩ := (Query.ofMembers_eq_ok_iff.mp asked).identifier
      obtain rfl : v = w := Option.some.inj (named.symm.trans named')
      rw [kept]
      exact Member.counted_unique counted ((counted_resolveTag_iff simple).mpr read)

namespace Sample

/-- The members of a query, with a number that is no tag. -/
def draft : Query.Draft where
  contract := .text (Address.ofNat 7).checksum
  user := .text (Address.ofNat 8).checksum
  client := .text (Address.ofNat 8).checksum
  minBlock := .int 1
  maxBlock := .int 2
  blockHash := .int 3
  rewardsRate := .int 4
  identifier := .int 5

theorem valid_draft [Address.CaseRule] :
    draft.check = .ok ⟨.ofNat 7, .ofNat 8, .ofNat 8, 1, 2, 3, 4, 5⟩ :=
  Query.check_eq_ok.mpr ⟨Member.address_checksum _ _, Member.address_checksum _ _,
    Member.address_checksum _ _, rfl, rfl, rfl, rfl, rfl⟩

/-- A statement with the tag of ids. -/
def stated : Statement where
  minBlock := 1
  maxBlock := 2
  contract := (Address.ofNat 7).checksum
  user := (Address.ofNat 8).checksum
  identifier := 67
  nftIds := [9, 10, 11, 12, 13]
  blockHash := 3
  rewardsRate := 4
  erc20Result := 0
  blockNumber := 2
  range := 2
  mappingSlot := 6
  mappingSlotLength := 7

theorem writable_stated : stated.Writable 5 (.ofNat 7) (.ofNat 8) := by
  constructor
  case contract => exact Address.ofText_checksum _
  case user => exact Address.ofText_checksum _
  all_goals decide

end Sample

/-- The name of one tag between blanks is read alike, and the number of the other one is written, read
back and asked for. -/
theorem readers_agree_sample :
    parse (.text " eRc20\t") = .ok .erc20 ∧ validate (.text " eRc20\t") = .ok .erc20 ∧
      (∃ q, @Query.Draft.check .checksum { Sample.draft with identifier := .text " eRc20\t" } =
        .ok q ∧ q.identifier.toNat = 88) ∧
      ∃ data s' q', Sample.stated.encode Layout.standard = .ok data ∧
        Statement.decode data Layout.standard = .ok s' ∧
        @Query.Draft.check .checksum { Sample.draft with identifier := .int 67 } = .ok q' ∧
        (q'.identifier.toNat : ℤ) = s'.identifier := by
  let rule : Address.CaseRule := .checksum
  have read : parse (.text " eRc20\t") = .ok .erc20 := by rfl
  obtain ⟨named, _⟩ := readers_agree (v := .text " eRc20\t") trivial Sample.valid_draft
  obtain ⟨_, written⟩ := readers_agree (v := .int 67) trivial Sample.valid_draft
  have described := Statement.ofMembers_eq_ok_iff.mpr
    (Statement.describes_members Sample.writable_stated ⟨rfl, rfl⟩ (t := .nft) rfl)
  have encoded := Statement.encode_eq_ok_iff.mpr
    ⟨Layout.regular_standard, _, _, Sample.writable_stated, rfl⟩
  obtain ⟨s', q', decoded, checked, same, _⟩ := written _ _ _ rfl described encoded
  exact ⟨read, ((named .erc20).out 0 1).mp read, ((named .erc20).out 0 2).mp read,
    _, s', q', encoded, decoded, checked, same⟩

end Tag

end ProofGate
