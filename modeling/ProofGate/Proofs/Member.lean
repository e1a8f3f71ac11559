import ProofGate.Member
import ProofGate.Proofs.Address
import ProofGate.Proofs.Literal

/-!
# Members read

An account id is taken from its twenty bytes or from forty digits, as far as their letters are as
the rule has them, and a number from an integer, from bytes or from a literal: what is taken is what
the value writes. Every other value is refused with a plain failure.
-/

namespace ProofGate

namespace Address

theorem toNat_ofBytes {bs : Bytes} (h : bs.length = 20) : (ofBytes bs).bits.toNat = bs.natBE := by
  have wide : bs.natBE < 2 ^ 160 := by
    have := Bytes.natBE_lt bs
    rw [h] at this
    exact this
  rw [ofBytes, ofNat, BitVec.toNat_ofNat, Nat.mod_eq_of_lt wide]

theorem toNat_inj {a b : Address} : a.bits.toNat = b.bits.toNat ↔ a = b := by
  rw [BitVec.toNat_inj]
  constructor
  · intro same
    cases a
    cases b
    exact congrArg mk same
  · rintro rfl
    rfl

/-! ## Forms of an account id -/

/-- Forty digits of either case that write a number. -/
structure Forty (n : ℕ) (ds : List Char) : Prop where
  count : ds.length = 40
  plain : ∀ c ∈ ds, Hex.isDigit c = true
  value : Hex.number ds = n

/-- The forms of an account id: twenty bytes, or forty digits with or without a mark. -/
inductive Writes (n : ℕ) : Value → Prop where
  | bytes {bs : Bytes} : bs.length = 20 → bs.natBE = n → Writes n (.bytes bs)
  | bare {ds : List Char} : Forty n ds → Writes n (.text (Text.ofChars ds))
  | small {ds : List Char} : Forty n ds → Writes n (.text (Text.ofChars ('0' :: 'x' :: ds)))
  | capital {ds : List Char} : Forty n ds → Writes n (.text (Text.ofChars ('0' :: 'X' :: ds)))

theorem ofDigits_eq_some_iff {ds : List Char} {a : Address} :
    ofDigits? ds = some a ↔ Forty a.bits.toNat ds := by
  unfold ofDigits?
  constructor
  · intro read
    split at read
    · next count =>
      obtain ⟨bs, pairs, rfl⟩ := Option.map_eq_some_iff.mp read
      obtain ⟨plain, length⟩ := Hex.digits_of_pairs pairs
      refine ⟨count, plain, ?_⟩
      rw [Hex.number_of_pairs pairs, toNat_ofBytes (by omega)]
    · cases read
  · rintro ⟨count, plain, value⟩
    obtain ⟨bs, pairs⟩ := Hex.pairs_of_digits plain (by rw [count])
    have length := (Hex.digits_of_pairs pairs).2
    rw [if_pos count, pairs, Option.map_some, Option.some.injEq, ← toNat_inj,
      toNat_ofBytes (by omega), ← Hex.number_of_pairs pairs, value]

theorem ofText_eq_some_iff {t : Text} {a : Address} :
    ofText? t = some a ↔ Writes a.bits.toNat (.text t) := by
  rw [ofText?, ofDigits_eq_some_iff]
  constructor
  · intro forty
    have body := Hex.ofChars_chars forty.plain
    rcases Hex.dropMark_cases t with same | same | same
    · rw [same, ← body]
      exact .bare forty
    · rw [same, ← body]
      exact .small forty
    · rw [same, ← body]
      exact .capital forty
  · intro writes
    cases writes with
    | bare forty =>
      rw [Hex.dropMark_of_digits forty.plain, Text.chars_ofChars]
      exact forty
    | @small ds forty | @capital ds forty =>
      rw [← Text.chars_ofChars ds] at forty
      exact forty

theorem Forty.exists_address {n : ℕ} {ds : List Char} (forty : Forty n ds) :
    ∃ a : Address, a.bits.toNat = n := by
  obtain ⟨bs, pairs⟩ := Hex.pairs_of_digits forty.plain (by rw [forty.count])
  have length := (Hex.digits_of_pairs pairs).2
  rw [forty.count] at length
  refine ⟨ofBytes bs, ?_⟩
  rw [toNat_ofBytes (by omega), ← Hex.number_of_pairs pairs, forty.value]

/-- What can be written as an account id is the number of one. -/
theorem Writes.exists_address {n : ℕ} {v : Value} (writes : Writes n v) :
    ∃ a : Address, a.bits.toNat = n := by
  cases writes with
  | bytes length value => exact ⟨_, (toNat_ofBytes length).trans value⟩
  | bare forty | small forty | capital forty => exact forty.exists_address

/-! ## Forms that are accepted -/

/-- Digits whose letters are all small or all capital; there may be none. -/
def Uniform (ds : List Char) : Prop :=
  (∀ c ∈ ds, c.isUpper = false) ∨ ∀ c ∈ ds, c.isLower = false

theorem isUniform_iff {ds : List Char} : isUniform ds = true ↔ Uniform ds := by
  simp [isUniform, Uniform]

/-- The forms in which an account id is accepted: twenty bytes, digits with letters of one case,
and the checksum text. Digits with letters of both cases are accepted in any other form only by
the rule that does not look at them. -/
inductive Accepted [rule : CaseRule] (n : ℕ) : Value → Prop where
  | bytes {bs : Bytes} : bs.length = 20 → bs.natBE = n → Accepted n (.bytes bs)
  | uniform {t : Text} : Writes n (.text t) → Uniform (Text.chars (Hex.dropMark t)) →
      Accepted n (.text t)
  | checksum {a : Address} : a.bits.toNat = n → Accepted n (.text a.checksum)
  | unseen {t : Text} : rule = .any → Writes n (.text t) → Accepted n (.text t)

variable [rule : CaseRule]

theorem Accepted.writes {n : ℕ} {v : Value} (accepted : Accepted n v) : Writes n v := by
  cases accepted with
  | bytes length value => exact .bytes length value
  | uniform writes _ => exact writes
  | @checksum a value => exact value ▸ ofText_eq_some_iff.mp a.ofText_checksum
  | unseen _ writes => exact writes

theorem allows_iff {t : Text} {a : Address} :
    allows t a = true ↔
      rule = .any ∨ Uniform (Text.chars (Hex.dropMark t)) ∨ t = a.checksum := by
  unfold allows
  cases rule <;> simp [isUniform_iff]

/-- An address is recognised exactly in the texts in which it is accepted. -/
theorem recognize_eq_some_iff {t : Text} {a : Address} :
    recognize? t = some a ↔ Accepted a.bits.toNat (.text t) := by
  rw [recognize?, Option.filter_eq_some_iff, ofText_eq_some_iff, allows_iff]
  constructor
  · rintro ⟨writes, lenient | uniform | rfl⟩
    · exact .unseen lenient writes
    · exact .uniform writes uniform
    · exact .checksum rfl
  · intro accepted
    refine ⟨accepted.writes, ?_⟩
    cases accepted with
    | uniform _ uniform => exact Or.inr (Or.inl uniform)
    | checksum same => exact Or.inr (Or.inr (congrArg checksum (toNat_inj.mp same)))
    | unseen lenient _ => exact Or.inl lenient

/-- An address given on its own is a text in which one is accepted. -/
theorem validate_eq_ok_iff {name : Text} {v : Value} {a : Address} :
    validate name v = .ok a ↔ Accepted a.bits.toNat v ∧ ∃ t, v = .text t := by
  cases v with
  | text t =>
    rw [← recognize_eq_some_iff]
    cases t with
    | nil => simp [validate, recognize?, ofText?, ofDigits?, Hex.dropMark, Text.chars]
    | cons p ps =>
      unfold validate
      dsimp only [List.isEmpty_cons]
      rw [if_neg Bool.false_ne_true]
      cases recognize? (p :: ps) <;> simp
  | null | bool | int | float | bytes | list | object => simp [validate]

theorem tells_validate (name : Text) (v : Value) : Tells (· = .value) (validate name v) := by
  unfold validate
  split
  · split
    · exact tells_error rfl
    · split
      · exact tells_ok _
      · exact tells_error rfl
  · exact tells_error rfl

/-- Where letters are not looked at, an account id is accepted in all of its forms. -/
theorem accepted_iff_writes (lenient : rule = .any) {n : ℕ} {v : Value} :
    Accepted n v ↔ Writes n v := by
  refine ⟨Accepted.writes, fun writes => ?_⟩
  cases v with
  | text t => exact .unseen lenient writes
  | bytes bs =>
    cases writes with
    | bytes length value => exact .bytes length value
  | null | bool | int | float | list | object => cases writes

end Address

namespace Member

section

variable [Address.CaseRule]

/-- **Account ids.** An account id is taken exactly from the forms in which it is accepted. -/
theorem address_eq_ok_iff {name : String} {v : Value} {a : Address} :
    address name v = .ok a ↔ Address.Accepted a.bits.toNat v := by
  cases v with
  | text t =>
    rw [← Address.recognize_eq_some_iff]
    unfold address
    dsimp only
    cases Address.recognize? t <;> simp
  | bytes bs =>
    unfold address
    dsimp only
    constructor
    · intro read
      split at read
      · next length =>
        cases read
        exact .bytes length (Address.toNat_ofBytes length).symm
      · cases read
    · rintro ⟨⟩
      next length value =>
      rw [if_pos length, Except.ok.injEq, ← Address.toNat_inj, Address.toNat_ofBytes length, value]
  | null | bool | int | float | list | object =>
    constructor
    · rintro ⟨⟩
    · rintro ⟨⟩

/-- A value is accepted for no two account ids. -/
theorem accepted_unique {m n : ℕ} {v : Value} (first : Address.Accepted m v)
    (second : Address.Accepted n v) : m = n := by
  obtain ⟨a, rfl⟩ := first.writes.exists_address
  obtain ⟨b, rfl⟩ := second.writes.exists_address
  have read : address "" v = .ok a := address_eq_ok_iff.mpr first
  have again : address "" v = .ok b := address_eq_ok_iff.mpr second
  cases read.symm.trans again
  rfl

/-- The text that an account id is written as is taken for it. -/
theorem address_checksum (name : String) (a : Address) :
    address name (.text a.checksum) = .ok a :=
  address_eq_ok_iff.mpr (.checksum rfl)

theorem tells_address (name : String) (v : Value) : Tells (· = .value) (address name v) := by
  unfold address
  split
  · split
    · exact tells_ok _
    · exact tells_error rfl
  · split
    · exact tells_ok _
    · exact tells_error rfl
  · exact tells_error rfl

end

/-! ## Forms of a number -/

/-- The forms of a number: an integer, bytes, or a literal with blanks around. -/
inductive Counted (n : Int) : Value → Prop where
  | int : Counted n (.int n)
  | bytes {bs : Bytes} : (bs.natBE : Int) = n → Counted n (.bytes bs)
  | text {t : Text} : Literal.read .detected (Text.trim t) = .ok n → Counted n (.text t)

theorem integer_eq_ok_iff {name : String} {v : Value} {n : Int} :
    integer name v = .ok n ↔ Counted n v := by
  cases v with
  | int m =>
    constructor
    · rintro ⟨⟩
      exact .int
    · rintro ⟨⟩
      rfl
  | bytes bs =>
    constructor
    · rintro ⟨⟩
      exact .bytes rfl
    · rintro ⟨⟩
      next value =>
      rw [← value]
      rfl
  | text t =>
    unfold integer
    dsimp only
    constructor
    · intro read
      split at read
      · next literal =>
        cases read
        exact .text literal
      · cases read
    · rintro ⟨⟩
      next literal => rw [literal]
  | null | bool | float | list | object =>
    constructor
    · rintro ⟨⟩
    · rintro ⟨⟩

/-- A value counts no two numbers. -/
theorem counted_unique {m n : Int} {v : Value} (first : Counted m v) (second : Counted n v) :
    m = n := by
  have read : integer "" v = .ok m := integer_eq_ok_iff.mpr first
  exact Except.ok.inj (read.symm.trans (integer_eq_ok_iff.mpr second))

/-- **Numbers.** A number below `2 ^ 256` is taken exactly from the forms that write it. -/
theorem number_eq_ok_iff {name : String} {v : Value} {n : ℕ} :
    number name v = .ok n ↔ Counted n v ∧ n < 2 ^ 256 := by
  unfold number
  rw [bind_eq_ok]
  simp only [integer_eq_ok_iff]
  constructor
  · rintro ⟨m, counted, read⟩
    split at read
    · next range =>
      obtain ⟨low, high⟩ := range
      cases read
      rw [Int.toNat_of_nonneg low]
      have bound : m.toNat < twoTo 256 := by omega
      exact ⟨counted, bound⟩
    · cases read
  · rintro ⟨counted, bound⟩
    refine ⟨n, counted, ?_⟩
    have high : n < twoTo 256 := bound
    rw [if_pos ⟨by omega, by omega⟩, Int.toNat_natCast]
    rfl

/-! ## Failures -/

theorem tells_number (name : String) (v : Value) : Tells (· = .value) (number name v) := by
  refine Tells.bind ?_ fun n => ?_
  · unfold integer
    split
    · exact tells_ok _
    · exact tells_ok _
    · split
      · exact tells_ok _
      · exact tells_error rfl
    · exact tells_error rfl
  · split
    · exact tells_ok _
    · exact tells_error rfl

/-- Of all values only the infinite doubles are too large to be integers. -/
theorem wholeNumber_eq_infinite_iff {base : Literal.Base} {v : Value} :
    wholeNumber base v = .error .infiniteNumber ↔ ∃ negative, v = .float (.infinite negative) := by
  have literal (base : Literal.Base) (v : Value) (cs : List Char) :
      wholeNumber.readNumber base v cs ≠ .error .infiniteNumber := by
    unfold wholeNumber.readNumber
    split <;> simp
  cases v with
  | float x => cases x <;> simp [wholeNumber, Double.truncate?]
  | text t => simp [wholeNumber, literal]
  | bytes bs => simp [wholeNumber, literal]
  | null | bool | int | list | object => simp [wholeNumber]

end Member

end ProofGate
