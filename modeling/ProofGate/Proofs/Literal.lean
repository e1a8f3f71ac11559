import ProofGate.Number.Literal
import ProofGate.Proofs.Hex
import ProofGate.Proofs.Run
import Mathlib.Algebra.Ring.Nat
import Mathlib.Data.List.Forall2
import Mathlib.Data.List.Induction
import Mathlib.Tactic.Common

/-!
# Literals read back

Digits of a base, alone in decimal or behind the mark of the base, are read as the number that they
write. Nothing is trimmed from them and no sign is found, because all of them are plain digits or
letters.
-/

namespace ProofGate

namespace Literal

/-! ## Digits -/

/-- Digits of a base with what they count. -/
abbrev Counts (base : ℕ) : List Char → List ℕ → Prop :=
  List.Forall₂ fun c d => digitValue? c = some d ∧ d < base

theorem digitValue_digit : ∀ d < 36, digitValue? (Numeral.digit d) = some d := by decide

/-- A digit is a figure, a small letter or a capital, and counts from the first of these on. -/
theorem code_of_digitValue {c : Char} {d : ℕ} (h : digitValue? c = some d) :
    (48 ≤ c.toNat ∧ c.toNat ≤ 57 ∧ d = c.toNat - 48) ∨
      (97 ≤ c.toNat ∧ c.toNat ≤ 122 ∧ d = c.toNat - 87) ∨
      (65 ≤ c.toNat ∧ c.toNat ≤ 90 ∧ d = c.toNat - 55) := by
  unfold digitValue? at h
  split at h
  · next figure =>
    cases h
    exact Or.inl ⟨figure.1, figure.2, rfl⟩
  · split at h
    · next small =>
      cases h
      exact Or.inr (Or.inl ⟨small.1, small.2, rfl⟩)
    · split at h
      · next capital =>
        cases h
        exact Or.inr (Or.inr ⟨capital.1, capital.2, rfl⟩)
      · cases h

/-- Figures and letters stand in the first half of the plain characters. -/
theorem toNat_of_digitValue {c : Char} {d : ℕ} (h : digitValue? c = some d) :
    48 ≤ c.toNat ∧ c.toNat ≤ 122 := by
  have code := code_of_digitValue h
  omega

/-- Digits are all of a text up to its end. -/
theorem scan_digits {base : ℕ} {cs : List Char} {ds : List ℕ} (counts : Counts base cs ds)
    {digitDue : Bool} (some : cs ≠ [] ∨ digitDue = false) :
    scan? base digitDue cs = .some (ds, []) := by
  induction counts generalizing digitDue with
  | nil =>
    obtain none | due := some
    · exact absurd rfl none
    · rw [due]
      rfl
  | @cons c d cs ds first _ ih =>
    have digit : (digitValue? c).filter (· < base) = .some d := by
      rw [first.1, Option.filter_some, if_pos (decide_eq_true first.2)]
    rw [scan?, digit]
    dsimp only
    rw [ih (Or.inr rfl)]
    rfl

theorem ofScan_digits {base : ℕ} {cs : List Char} {ds : List ℕ} (counts : Counts base cs ds)
    (some : cs ≠ []) {limited : Bool} (few : limited = true → ds.length ≤ maxDigits) :
    ofScan limited base cs = .ok (ofDigits base ds) := by
  have short : (limited && decide (maxDigits < ds.length)) = false := by
    cases limited with
    | false => rfl
    | true => exact decide_eq_false (Nat.not_lt.mpr (few rfl))
  rw [ofScan, scan_digits counts (Or.inl some)]
  dsimp only
  rw [short, if_neg Bool.false_ne_true]
  rfl

/-! ## Plain text -/

theorem trimEnds_of_none {α : Type} {p : α → Bool} {xs : List α} (none : ∀ x ∈ xs, p x = false) :
    Text.trimEnds p xs = xs := by
  have kept {ys : List α} (none : ∀ y ∈ ys, p y = false) : ys.dropWhile p = ys := by
    cases ys with
    | nil => rfl
    | cons y ys => exact List.dropWhile_cons_of_neg (by simp [none y List.mem_cons_self])
  rw [Text.trimEnds, kept none, kept fun y hy => none y (List.mem_reverse.mp hy),
    List.reverse_reverse]

/-- Figures and letters are blank nowhere. -/
theorem not_blank_of_code {c : Char} (low : 48 ≤ c.toNat) (high : c.toNat ≤ 122) :
    Text.isBlank c = false ∧ Text.isNumeralBlank c = false := by
  simp only [Text.isBlank, Text.isNumeralBlank, Text.wideBlanks, Text.Ranges.has, List.cons_append,
    List.nil_append, List.any_cons, List.any_nil, Bool.or_false, Bool.or_eq_false_iff,
    Bool.and_eq_false_iff, decide_eq_false_iff_not]
  omega

/-- Figures and letters stay when a text is trimmed. -/
theorem trim_of_codes {cs : List Char} (range : ∀ c ∈ cs, 48 ≤ c.toNat ∧ c.toNat ≤ 122) :
    Text.trim (Text.ofChars cs) = Text.ofChars cs := by
  apply trimEnds_of_none
  rw [Text.ofChars, List.forall_mem_map]
  exact fun c hc => (not_blank_of_code (range c hc).1 (range c hc).2).1

/-- Plain digits and letters are read as they stand. -/
theorem readChars_plain {cs : List Char} (plain : ∀ c ∈ cs, (digitValue? c).isSome) (base : Base) :
    readChars base cs = (unsigned base cs).map Int.ofNat := by
  have range : ∀ c ∈ cs, 48 ≤ c.toNat ∧ c.toNat ≤ 122 := by
    intro c hc
    obtain ⟨d, value⟩ := Option.isSome_iff_exists.mp (plain c hc)
    exact toNat_of_digitValue value
  -- So none of the characters is a blank, a sign or a digit of another script.
  have blank : ∀ c ∈ cs, Text.isNumeralBlank c = false := fun c hc =>
    (not_blank_of_code (range c hc).1 (range c hc).2).2
  have ascii : cs.map plainDigit = cs := by
    refine (List.map_congr_left fun c hc => ?_).trans (List.map_id cs)
    exact if_pos (Nat.lt_of_le_of_lt (range c hc).2 (by decide))
  have unsigned_head (sign : Char) (low : sign.toNat < 48) (rest : List Char) :
      cs ≠ sign :: rest := by
    rintro rfl
    have := range sign List.mem_cons_self
    omega
  rw [readChars, trimEnds_of_none blank, ascii]
  split
  · exact absurd rfl (unsigned_head '-' (by decide) _)
  · exact absurd rfl (unsigned_head '+' (by decide) _)
  · rfl

theorem isSome_of_counts {base : ℕ} {cs : List Char} {ds : List ℕ} (counts : Counts base cs ds) :
    ∀ c ∈ cs, (digitValue? c).isSome := by
  induction counts with
  | nil => simp
  | cons first _ ih =>
    rw [List.forall_mem_cons, first.1]
    exact ⟨rfl, ih⟩

/-! ## Marks -/

/-- The letters behind a zero that tell the base. -/
inductive Mark : Char → ℕ → Prop where
  | x : Mark 'x' 16
  | X : Mark 'X' 16
  | o : Mark 'o' 8
  | O : Mark 'O' 8
  | b : Mark 'b' 2
  | B : Mark 'B' 2

/-- **Marked literals.** Digits behind a mark are read in its base. -/
theorem readChars_marked {m : Char} {base : ℕ} (mark : Mark m base) {cs : List Char} {ds : List ℕ}
    (counts : Counts base cs ds) (some : cs ≠ []) :
    readChars .detected ('0' :: m :: cs) = .ok (ofDigits base ds) := by
  have plain : ∀ c ∈ '0' :: m :: cs, (digitValue? c).isSome := by
    rw [List.forall_mem_cons, List.forall_mem_cons]
    exact ⟨rfl, by cases mark <;> rfl, isSome_of_counts counts⟩
  have scanned : ofMarked base cs = .ok (ofDigits base ds) := by
    unfold ofMarked
    split
    · next rest =>
      exact absurd (isSome_of_counts counts '_' List.mem_cons_self) (by decide)
    · exact ofScan_digits counts some nofun
  have read : unsigned .detected ('0' :: m :: cs) = .ok (ofDigits base ds) := by
    cases mark <;> exact scanned
  rw [readChars_plain plain, read]
  rfl

end Literal

/-! ## Numerals -/

namespace Numeral

theorem digits_of_lt {base n : ℕ} (h : n < base) : digits base n = [digit n] := by
  rw [digits, dif_pos (Or.inl h)]

theorem digits_of_le {base n : ℕ} (two : 2 ≤ base) (h : base ≤ n) :
    digits base n = digits base (n / base) ++ [digit (n % base)] := by
  rw [digits, dif_neg (by omega)]

theorem digits_ne_nil (base n : ℕ) : digits base n ≠ [] := by
  rw [digits]
  split <;> simp

/-- **Numerals count.** The digits of a number count that number. -/
theorem counts_digits {b : ℕ} (two : 2 ≤ b) (few : b ≤ 36) (n : ℕ) :
    ∃ ds, Literal.Counts b (digits b n) ds ∧ Literal.ofDigits b ds = n := by
  induction n using Nat.strong_induction_on with
  | _ n ih =>
    by_cases small : n < b
    · refine ⟨[n], ?_, ?_⟩
      · rw [digits_of_lt small]
        exact .cons ⟨Literal.digitValue_digit n (by omega), small⟩ .nil
      · show 0 * b + n = n
        rw [Nat.zero_mul, Nat.zero_add]
    · obtain ⟨ds, counts, value⟩ := ih (n / b) (Nat.div_lt_self (by omega) (by omega))
      have last : n % b < b := Nat.mod_lt _ (by omega)
      refine ⟨ds ++ [n % b], ?_, ?_⟩
      · rw [digits_of_le two (by omega)]
        exact List.rel_append counts (.cons ⟨Literal.digitValue_digit _ (by omega), last⟩ .nil)
      · rw [Literal.ofDigits, List.foldl_append, ← Literal.ofDigits, value]
        exact Nat.div_add_mod' n b

theorem length_digits_le {base : ℕ} (two : 2 ≤ base) {n k : ℕ} (h : n < base ^ (k + 1)) :
    (digits base n).length ≤ k + 1 := by
  induction k generalizing n with
  | zero =>
    rw [Nat.zero_add, Nat.pow_one] at h
    rw [digits_of_lt h]
    rfl
  | succ k ih =>
    by_cases small : n < base
    · rw [digits_of_lt small]
      exact Nat.le_add_left ..
    · have high : n / base < base ^ (k + 1) := by
        rw [Nat.div_lt_iff_lt_mul (by omega), ← Nat.pow_succ]
        exact h
      rw [digits_of_le two (by omega), List.length_append]
      exact Nat.succ_le_succ (ih high)

/-- Numbers of 256 bits have far fewer digits than a literal may have. -/
theorem few_digits {n : ℕ} (small : n < 2 ^ 256) : (digits 10 n).length ≤ Literal.maxDigits := by
  have shorter : 2 ^ 256 < 10 ^ (77 + 1) := by decide
  exact Nat.le_trans (length_digits_le (by decide) (Nat.lt_trans small shorter)) (by decide)

/-- A numeral consists of digits of its base. -/
theorem eq_digit_of_mem {b : ℕ} (two : 2 ≤ b) (n : ℕ) :
    ∀ c ∈ digits b n, ∃ d < b, c = digit d := by
  induction n using Nat.strong_induction_on with
  | _ n ih =>
    by_cases small : n < b
    · rw [digits_of_lt small, List.forall_mem_singleton]
      exact ⟨n, small, rfl⟩
    · rw [digits_of_le two (by omega), List.forall_mem_append, List.forall_mem_singleton]
      exact ⟨ih _ (Nat.div_lt_self (by omega) (by omega)), n % b, Nat.mod_lt _ (by omega), rfl⟩

/-- The first digit of a number that is not zero is not zero. -/
theorem head_digits {b : ℕ} (two : 2 ≤ b) (few : b ≤ 36) {n : ℕ} (positive : 0 < n) :
    (digits b n).head? ≠ some '0' := by
  have nonzero : ∀ d < 36, 0 < d → digit d ≠ '0' := by decide
  induction n using Nat.strong_induction_on with
  | _ n ih =>
    by_cases small : n < b
    · rw [digits_of_lt small, List.head?_singleton]
      exact fun same => nonzero n (by omega) positive (Option.some.inj same)
    · have high : 0 < n / b := Nat.div_pos (by omega) (by omega)
      rw [digits_of_le two (by omega), List.head?_append_of_ne_nil _ (digits_ne_nil _ _)]
      exact ih _ (Nat.div_lt_self (by omega) (by omega)) high

end Numeral

/-- The digits of bytes count what the bytes do. -/
theorem Hex.counts_digits (bs : Bytes) :
    ∃ ds, Literal.Counts 16 (digits bs) ds ∧ Literal.ofDigits 16 ds = bs.natBE := by
  induction bs using List.reverseRecOn with
  | nil => exact ⟨[], .nil, rfl⟩
  | append_singleton bs b ih =>
    obtain ⟨ds, counts, value⟩ := ih
    have hb : b.toNat < 256 := b.toNat_lt
    have high : b.toNat / 16 < 16 := by omega
    have low : b.toNat % 16 < 16 := by omega
    refine ⟨ds ++ [b.toNat / 16, b.toNat % 16], ?_, ?_⟩
    · rw [digits, List.flatMap_append, List.flatMap_singleton]
      exact List.rel_append counts (.cons ⟨Literal.digitValue_digit _ (by omega), high⟩
        (.cons ⟨Literal.digitValue_digit _ (by omega), low⟩ .nil))
    · have last : Bytes.natBE [b] = b.toNat := rfl
      rw [Literal.ofDigits, List.foldl_append, ← Literal.ofDigits, value, Bytes.natBE_append, last]
      show (Bytes.natBE bs * 16 + b.toNat / 16) * 16 + b.toNat % 16 = Bytes.natBE bs * 256 + b.toNat
      omega

namespace Literal

/-- **Decimal literals.** A number is read from its digits, if these are not too many. -/
theorem readChars_decimal {n : ℕ} (few : (Numeral.digits 10 n).length ≤ maxDigits) :
    readChars .detected (Numeral.digits 10 n) = .ok n := by
  obtain ⟨ds, counts, value⟩ := Numeral.counts_digits (b := 10) (by decide) (by decide) n
  rw [counts.length_eq] at few
  have scanned : ofScan true 10 (Numeral.digits 10 n) = .ok n := by
    rw [ofScan_digits counts (Numeral.digits_ne_nil _ _) fun _ => few, value]
  have read : unsigned .detected (Numeral.digits 10 n) = .ok n := by
    by_cases positive : 0 < n
    · have head := Numeral.head_digits (b := 10) (by decide) (by decide) positive
      unfold unsigned
      split
      · next same => cases same
      · next same =>
        rw [same] at head
        exact absurd rfl head
      · exact scanned
    · obtain rfl : n = 0 := by omega
      rw [Numeral.digits_of_lt (by decide)]
      rfl
  rw [readChars_plain (isSome_of_counts counts), read]
  rfl

end Literal

end ProofGate
