import ProofGate.Text.Hex
import ProofGate.Proofs.Bytes
import Mathlib.Data.List.TakeWhile
import Mathlib.Tactic.Common

/-!
# Reading hexadecimal text

A text of digits, whatever the case of these and with or without a mark in front of them, is read as
the bytes that count the number it writes, two digits for a byte and one zero in front of an odd
number of digits. So bytes are read back from the digits that they are written in.
-/

namespace ProofGate

@[simp] theorem Text.chars_ofChars (cs : List Char) : Text.chars (Text.ofChars cs) = cs := by
  induction cs with
  | nil => rfl
  | cons c cs ih => exact congrArg (c :: ·) ih

namespace Hex

/-! ## Digits -/

theorem value_digit : ∀ d < 16, value? (Numeral.digit d) = some d := by decide

theorem value_digit_toUpper : ∀ d < 16, value? (Numeral.digit d).toUpper = some d := by decide

/-- A digit is a figure, a small letter or a capital, and counts from the first of these on. -/
theorem code_of_value {c : Char} {d : ℕ} (h : value? c = some d) :
    (48 ≤ c.toNat ∧ c.toNat ≤ 57 ∧ d = c.toNat - 48) ∨
      (97 ≤ c.toNat ∧ c.toNat ≤ 102 ∧ d = c.toNat - 87) ∨
      (65 ≤ c.toNat ∧ c.toNat ≤ 70 ∧ d = c.toNat - 55) := by
  unfold value? at h
  split at h
  · next figure =>
    cases h
    exact Or.inl ⟨figure.1, figure.2, rfl⟩
  · split at h
    · next small =>
      cases h
      exact Or.inr (Or.inl ⟨small.1, small.2, rfl⟩)
    · split at h
      · next capital =>
        cases h
        exact Or.inr (Or.inr ⟨capital.1, capital.2, rfl⟩)
      · cases h

theorem toNat_of_value {c : Char} {d : ℕ} (h : value? c = some d) :
    48 ≤ c.toNat ∧ c.toNat ≤ 102 := by
  have code := code_of_value h
  omega

theorem value_lt {c : Char} {d : ℕ} (h : value? c = some d) : d < 16 := by
  have code := code_of_value h
  omega

@[simp] theorem digits_cons (b : UInt8) (bs : Bytes) :
    digits (b :: bs) =
      Numeral.digit (b.toNat / 16) :: Numeral.digit (b.toNat % 16) :: digits bs := rfl

@[simp] theorem length_digits (bs : Bytes) : (digits bs).length = 2 * bs.length := by
  induction bs with
  | nil => rfl
  | cons b bs ih =>
    rw [digits_cons, List.length_cons, List.length_cons, ih, List.length_cons]
    omega

/-! ## Pairs -/

/-- Two digits that count the halves of a byte are that byte. -/
theorem pairs_cons {high low : Char} {b : UInt8} (h : value? high = some (b.toNat / 16))
    (l : value? low = some (b.toNat % 16)) (rest : List Char) :
    pairs? (high :: low :: rest) = (pairs? rest).map (b :: ·) := by
  have whole : UInt8.ofNat (b.toNat / 16 * 16 + b.toNat % 16) = b := by
    rw [Nat.div_add_mod', UInt8.ofNat_toNat]
  rw [pairs?, h, l]
  show (pairs? rest).bind (fun bs => some (UInt8.ofNat (b.toNat / 16 * 16 + b.toNat % 16) :: bs)) = _
  rw [whole]
  cases pairs? rest <;> rfl

/-- **Reading back.** Bytes are read from their digits. -/
theorem pairs_digits (bs : Bytes) : pairs? (digits bs) = some bs := by
  induction bs with
  | nil => rfl
  | cons b bs ih =>
    have hb : b.toNat < 256 := b.toNat_lt
    rw [digits_cons, pairs_cons (value_digit _ (by omega)) (value_digit _ (by omega)), ih]
    rfl

/-- What is read begins with the byte of the first two digits. -/
theorem exists_of_pairs {high low : Char} {rest : List Char} {bs : Bytes}
    (h : pairs? (high :: low :: rest) = some bs) :
    ∃ n m behind, value? high = some n ∧ value? low = some m ∧ pairs? rest = some behind ∧
      bs = UInt8.ofNat (n * 16 + m) :: behind := by
  rw [pairs?] at h
  obtain ⟨n, highDigit, h⟩ := Option.bind_eq_some_iff.mp h
  obtain ⟨m, lowDigit, h⟩ := Option.bind_eq_some_iff.mp h
  obtain ⟨behind, read, same⟩ := Option.bind_eq_some_iff.mp h
  exact ⟨n, m, behind, highDigit, lowDigit, read, (Option.some.inj same).symm⟩

/-- What is read in pairs is digits throughout, and an even number of them. -/
theorem digits_of_pairs {ds : List Char} {bs : Bytes} (h : pairs? ds = some bs) :
    (∀ c ∈ ds, isDigit c = true) ∧ ds.length = 2 * bs.length := by
  induction ds using pairs?.induct generalizing bs with
  | case1 =>
    cases h
    exact ⟨by simp, rfl⟩
  | case2 => cases h
  | case3 high low rest ih =>
    obtain ⟨n, m, behind, highDigit, lowDigit, read, rfl⟩ := exists_of_pairs h
    obtain ⟨all, even⟩ := ih read
    constructor
    · rw [List.forall_mem_cons, List.forall_mem_cons, isDigit, isDigit, highDigit, lowDigit]
      exact ⟨rfl, rfl, all⟩
    · rw [List.length_cons, List.length_cons, even, List.length_cons]
      omega

/-- An even number of digits is read in pairs. -/
theorem pairs_of_digits {ds : List Char} (plain : ∀ c ∈ ds, isDigit c = true)
    (even : ds.length % 2 = 0) : ∃ bs, pairs? ds = some bs := by
  induction ds using pairs?.induct with
  | case1 => exact ⟨[], rfl⟩
  | case2 => cases even
  | case3 high low rest ih =>
    rw [List.forall_mem_cons, List.forall_mem_cons] at plain
    obtain ⟨highPlain, lowPlain, plain⟩ := plain
    rw [List.length_cons, List.length_cons] at even
    obtain ⟨n, highDigit⟩ := Option.isSome_iff_exists.mp highPlain
    obtain ⟨m, lowDigit⟩ := Option.isSome_iff_exists.mp lowPlain
    obtain ⟨bs, read⟩ := ih plain (by omega)
    rw [pairs?, highDigit, lowDigit, read]
    exact ⟨_, rfl⟩

/-! ## Numbers -/

/-- The number that digits write. -/
def number : List Char → ℕ
  | [] => 0
  | c :: cs => (value? c).getD 0 * 16 ^ cs.length + number cs

theorem number_of_pairs {ds : List Char} {bs : Bytes} (h : pairs? ds = some bs) :
    number ds = bs.natBE := by
  induction ds using pairs?.induct generalizing bs with
  | case1 =>
    cases h
    rfl
  | case2 => cases h
  | case3 high low rest ih =>
    obtain ⟨n, m, behind, highDigit, lowDigit, read, rfl⟩ := exists_of_pairs h
    have inside : n * 16 + m < 256 := by
      have high := value_lt highDigit
      have low := value_lt lowDigit
      omega
    have byte : (UInt8.ofNat (n * 16 + m)).toNat = n * 16 + m := by
      rw [UInt8.toNat_ofNat', Nat.mod_eq_of_lt inside]
    have width : 16 ^ rest.length = 256 ^ behind.length := by
      rw [(digits_of_pairs read).2, pow_mul]
      rfl
    rw [number, number, highDigit, lowDigit, ih read, Bytes.natBE_cons, byte, List.length_cons,
      pow_succ, width]
    simp only [Option.getD_some]
    ring

/-- Digits that count bytes: two for each, but only one for the first if their number is odd. -/
structure Counts (ds : List Char) (bs : Bytes) : Prop where
  plain : ∀ c ∈ ds, isDigit c = true
  length : bs.length = (ds.length + 1) / 2
  value : bs.natBE = number ds

/-- Digits with a zero in front if their number is odd. -/
def completed (ds : List Char) : List Char :=
  if ds.length % 2 = 1 then '0' :: ds else ds

theorem length_completed (ds : List Char) :
    (completed ds).length = 2 * ((ds.length + 1) / 2) := by
  unfold completed
  split
  · rw [List.length_cons]
    omega
  · omega

theorem plain_completed {ds : List Char} :
    (∀ c ∈ completed ds, isDigit c = true) ↔ ∀ c ∈ ds, isDigit c = true := by
  unfold completed
  split
  · rw [List.forall_mem_cons, and_iff_right (by decide)]
  · rfl

theorem number_completed (ds : List Char) : number (completed ds) = number ds := by
  unfold completed
  split
  · show 0 * 16 ^ ds.length + number ds = number ds
    rw [zero_mul, zero_add]
  · rfl

/-- **Counting.** Digits count exactly the bytes that they are read as in pairs. -/
theorem counts_iff {ds : List Char} {bs : Bytes} :
    Counts ds bs ↔ pairs? (completed ds) = some bs := by
  constructor
  · rintro ⟨plain, length, value⟩
    obtain ⟨bs', read⟩ := pairs_of_digits (plain_completed.mpr plain)
      (by rw [length_completed]; omega)
    have size := (digits_of_pairs read).2
    have same := number_of_pairs read
    rw [length_completed] at size
    rw [number_completed, ← value] at same
    rw [read, Bytes.natBE_inj (by omega) same]
  · intro read
    obtain ⟨plain, length⟩ := digits_of_pairs read
    have value := number_of_pairs read
    rw [length_completed] at length
    rw [number_completed] at value
    exact ⟨plain_completed.mp plain, by omega, value.symm⟩

theorem counts_of_pairs {ds : List Char} {bs : Bytes} (h : pairs? ds = some bs) :
    Counts ds bs := by
  have even : ¬ ds.length % 2 = 1 := by
    rw [(digits_of_pairs h).2]
    omega
  rw [counts_iff, completed, if_neg even]
  exact h

/-! ## Texts -/

/-- Bytes may be written with or without a mark and with digits of either case. -/
inductive Spells (bs : Bytes) : Text → Prop where
  | bare {ds : List Char} : pairs? ds = some bs → Spells bs (Text.ofChars ds)
  | small {ds : List Char} : pairs? ds = some bs → Spells bs (Text.ofChars ('0' :: 'x' :: ds))
  | capital {ds : List Char} : pairs? ds = some bs → Spells bs (Text.ofChars ('0' :: 'X' :: ds))

/-- Digits of either case, any number of them, with or without a mark in front. -/
inductive Hexadecimal : Text → Prop where
  | bare {ds : List Char} : (∀ c ∈ ds, isDigit c = true) → Hexadecimal (Text.ofChars ds)
  | small {ds : List Char} : (∀ c ∈ ds, isDigit c = true) →
      Hexadecimal (Text.ofChars ('0' :: 'x' :: ds))
  | capital {ds : List Char} : (∀ c ∈ ds, isDigit c = true) →
      Hexadecimal (Text.ofChars ('0' :: 'X' :: ds))

/-- The digits of a text, with or without a mark in front, count these bytes. -/
inductive Denotes (bs : Bytes) : Text → Prop where
  | bare {ds : List Char} : Counts ds bs → Denotes bs (Text.ofChars ds)
  | small {ds : List Char} : Counts ds bs → Denotes bs (Text.ofChars ('0' :: 'x' :: ds))
  | capital {ds : List Char} : Counts ds bs → Denotes bs (Text.ofChars ('0' :: 'X' :: ds))

theorem spells_encode (bs : Bytes) : Spells bs (encode bs) := .bare (pairs_digits bs)

theorem spells_marked (bs : Bytes) : Spells bs (marked bs) := .small (pairs_digits bs)

theorem Spells.denotes {bs : Bytes} {t : Text} (h : Spells bs t) : Denotes bs t := by
  cases h with
  | bare pairs => exact .bare (counts_of_pairs pairs)
  | small pairs => exact .small (counts_of_pairs pairs)
  | capital pairs => exact .capital (counts_of_pairs pairs)

/-! ## Marks -/

theorem mem_of_marked {cs : List Char} {m : Char} {rest : Text}
    (h : Text.ofChars cs = .char '0' :: .char m :: rest) : m ∈ cs := by
  match cs, h with
  | _ :: _ :: _, rfl => exact List.mem_cons_of_mem _ List.mem_cons_self

/-- A mark is no digit. -/
theorem dropMark_of_digits {cs : List Char} (plain : ∀ c ∈ cs, isDigit c = true) :
    dropMark (Text.ofChars cs) = Text.ofChars cs := by
  unfold dropMark
  split
  · next h => exact absurd (plain 'x' (mem_of_marked h)) (by decide)
  · next h => exact absurd (plain 'X' (mem_of_marked h)) (by decide)
  · rfl

/-- What is dropped is one of the two marks, or nothing. -/
theorem dropMark_cases (t : Text) : t = dropMark t ∨ t = .char '0' :: .char 'x' :: dropMark t ∨
    t = .char '0' :: .char 'X' :: dropMark t := by
  unfold dropMark
  split
  · exact Or.inr (Or.inl rfl)
  · exact Or.inr (Or.inr rfl)
  · exact Or.inl rfl

/-- A mark has two characters, so what is behind it is as even as the whole. -/
theorem length_dropMark (t : Text) : (dropMark t).length % 2 = t.length % 2 := by
  unfold dropMark
  split
  · exact (Nat.add_mod_right _ 2).symm
  · exact (Nat.add_mod_right _ 2).symm
  · rfl

/-- The half of a pair is no digit. -/
theorem ofChars_chars {t : Text} (plain : ∀ c ∈ t.chars, isDigit c = true) :
    Text.ofChars t.chars = t := by
  induction t with
  | nil => rfl
  | cons p t ih =>
    obtain ⟨first, rest⟩ := List.forall_mem_cons.mp plain
    cases p with
    | char c => exact congrArg (Point.char c :: ·) (ih rest)
    | half low => cases first

theorem hexadecimal_iff {t : Text} :
    Hexadecimal t ↔ ∀ c ∈ (dropMark t).chars, isDigit c = true := by
  constructor
  · intro h
    cases h with
    | bare plain =>
      rw [dropMark_of_digits plain, Text.chars_ofChars]
      exact plain
    | @small ds plain | @capital ds plain =>
      rw [← Text.chars_ofChars ds] at plain
      exact plain
  · intro plain
    have body := ofChars_chars plain
    rcases dropMark_cases t with same | same | same
    · rw [same, ← body]
      exact .bare plain
    · rw [same, ← body]
      exact .small plain
    · rw [same, ← body]
      exact .capital plain

theorem denotes_iff {bs : Bytes} {t : Text} : Denotes bs t ↔ Counts (dropMark t).chars bs := by
  constructor
  · intro h
    cases h with
    | bare counts =>
      rw [dropMark_of_digits counts.plain, Text.chars_ofChars]
      exact counts
    | @small ds counts | @capital ds counts =>
      rw [← Text.chars_ofChars ds] at counts
      exact counts
  · intro counts
    have body := ofChars_chars counts.plain
    rcases dropMark_cases t with same | same | same
    · rw [same, ← body]
      exact .bare counts
    · rw [same, ← body]
      exact .small counts
    · rw [same, ← body]
      exact .capital counts

/-! ## Reading -/

theorem notAscii_ofChars {cs : List Char} (plain : ∀ c ∈ cs, isDigit c = true) :
    notAscii? (Text.ofChars cs) = none := by
  have none : (Text.ofChars cs).dropWhile (fun p => decide (p.code < 128)) = [] := by
    rw [List.dropWhile_eq_nil_iff, Text.ofChars, List.forall_mem_map]
    intro c hc
    obtain ⟨d, value⟩ := Option.isSome_iff_exists.mp (plain c hc)
    exact decide_eq_true (Nat.lt_of_le_of_lt (toNat_of_value value).2 (by decide))
  simp only [notAscii?]
  rw [none]

/-- **Reading.** A text is read as the bytes that it denotes. -/
theorem read_eq_ok_iff {t : Text} {bs : Bytes} : read t = .ok bs ↔ Denotes bs t := by
  have parity : (dropMark t).chars.length % 2 = t.length % 2 := by
    rw [Text.chars, List.length_map, length_dropMark]
  have body : Text.chars (if t.length % 2 = 1 then .char '0' :: dropMark t else dropMark t) =
      completed (dropMark t).chars := by
    rw [completed, parity]
    split <;> rfl
  rw [denotes_iff, counts_iff, ← body]
  unfold read
  dsimp only
  generalize (if t.length % 2 = 1 then .char '0' :: dropMark t else dropMark t : Text) = even
  constructor
  · intro read
    split at read
    · cases read
    · split at read
      · next pairs =>
        cases read
        exact pairs
      · cases read
  · intro pairs
    have plain := (digits_of_pairs pairs).1
    have ascii : notAscii? even = none := by
      rw [← ofChars_chars plain]
      exact notAscii_ofChars plain
    rw [ascii]
    dsimp only
    rw [pairs]

/-- **Hexadecimal texts.** A text is read exactly if there is nothing but digits behind its mark. -/
theorem read_isOk_iff {t : Text} : (∃ bs, read t = .ok bs) ↔ Hexadecimal t := by
  simp only [read_eq_ok_iff, denotes_iff, hexadecimal_iff]
  constructor
  · rintro ⟨bs, counts⟩
    exact counts.plain
  · intro plain
    have even : (completed (dropMark t).chars).length % 2 = 0 := by
      rw [length_completed, Nat.mul_mod_right]
    obtain ⟨bs, pairs⟩ := pairs_of_digits (plain_completed.mpr plain) even
    exact ⟨bs, counts_iff.mpr pairs⟩

end Hex

end ProofGate
