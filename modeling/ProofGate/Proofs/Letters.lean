import ProofGate.Proofs.Member
import ProofGate.Text.Case

/-!
# Account ids in small letters

A text in small letters writes the same account id as the text itself. For a text of low codes that
is because digits count the same in either case; and no capital of a higher code has a small letter
that is a digit or belongs to a mark.
-/

namespace ProofGate

/-! ## Letters -/

namespace Text

/-- Codes below those of the first letters beyond ASCII. -/
def Low : Point → Prop
  | .char c => c.toNat < 0xC0
  | .half _ => False

/-- A point that stands in no account id: its code is neither among those from the first figure to the
last letter of a digit nor that of the mark. -/
def Foreign (p : Point) : Prop :=
  p.code < 48 ∨ 102 < p.code ∧ p.code ≠ 120

instance (p : Point) : Decidable (Foreign p) :=
  inferInstanceAs (Decidable (_ ∨ _))

theorem foreign_of_not_low {p : Point} (high : ¬ Low p) : Foreign p := by
  refine Or.inr ?_
  cases p with
  | char c =>
    have beyond : 0xC0 ≤ c.toNat := Nat.le_of_not_lt high
    show 102 < c.toNat ∧ c.toNat ≠ 120
    omega
  | half low =>
    show 102 < 0xD800 + low.val ∧ 0xD800 + low.val ≠ 120
    omega

theorem toNat_ofNat (n : ℕ) : (Char.ofNat n).toNat = n ∨ (Char.ofNat n).toNat = 0 := by
  by_cases valid : n.isValidChar
  · left
    rw [Char.ofNat, dif_pos valid]
    rfl
  · right
    rw [Char.ofNat, dif_neg valid]
    rfl

/-- What holds of each of the capitals holds of a capital. -/
theorem of_capital {P : Char → Prop} (each : ∀ n < 91, 65 ≤ n → P (Char.ofNat n)) {c : Char}
    (capital : 65 ≤ c.toNat ∧ c.toNat ≤ 90) : P c := by
  have this := each c.toNat (by omega) capital.1
  rwa [Char.ofNat_toNat] at this

theorem toLower_capital {c : Char} (capital : 65 ≤ c.toNat ∧ c.toNat ≤ 90) :
    c.toLower = Char.ofNat (c.toNat + 32) :=
  of_capital (P := fun c => c.toLower = Char.ofNat (c.toNat + 32)) (by decide) capital

theorem toLower_of_not_capital {c : Char} (h : ¬ (65 ≤ c.toNat ∧ c.toNat ≤ 90)) : c.toLower = c :=
  dif_neg h

theorem value_toLower (c : Char) : Hex.value? c.toLower = Hex.value? c := by
  by_cases capital : 65 ≤ c.toNat ∧ c.toNat ≤ 90
  · exact of_capital (P := fun c => Hex.value? c.toLower = Hex.value? c) (by decide) capital
  · rw [toLower_of_not_capital capital]

theorem lowerChar_low {c : Char} (low : c.toNat < 0xC0) : lowerChar c = [c.toLower] := by
  have undotted : c ≠ 'İ' := by
    rintro rfl
    exact absurd low (by decide)
  rw [lowerChar, if_neg undotted]
  by_cases capital : 65 ≤ c.toNat ∧ c.toNat ≤ 90
  · have first : runOf? c = some (0x41, 0x5A, 1, 32) := by
      refine List.find?_cons_of_pos ?_
      simp [capital, Nat.mod_one]
    rw [first, toLower_capital capital]
    rfl
  · have none : runOf? c = none := by
      -- all runs but the first one begin beyond the low codes
      have beyond : ∀ r ∈ capitalRuns, r.1 = 65 ∧ r.2.1 = 90 ∨ 0xC0 ≤ r.1 := by decide +kernel
      rw [runOf?, List.find?_eq_none]
      rintro ⟨first, last, step, shift⟩ inside found
      rw [Bool.and_eq_true, Bool.and_eq_true, decide_eq_true_eq, decide_eq_true_eq] at found
      rcases beyond _ inside with ⟨rfl, rfl⟩ | after
      · exact capital found.1
      · exact absurd (Nat.le_trans after found.1.1) (by omega)
    rw [none, toLower_of_not_capital capital]

/-- A letter of a higher code has no small letter that account ids are written with. -/
theorem lowerChar_high {c : Char} (high : 0xC0 ≤ c.toNat) :
    ∃ d ∈ lowerChar c, Foreign (.char d) := by
  rw [lowerChar]
  split
  · exact ⟨'i', List.mem_cons_self .., by decide⟩
  split
  · next first last step shift found =>
    refine ⟨_, List.mem_singleton_self _, ?_⟩
    -- the sign for Kelvin alone goes back to a low code, that of a letter which is no digit
    have beyond : ∀ r ∈ capitalRuns, 0xC0 ≤ r.2.1 →
        120 < (r.1 : ℤ) + r.2.2.2 ∨ r.1 = r.2.1 ∧ (r.1 : ℤ) + r.2.2.2 = 107 := by decide +kernel
    have within := List.find?_some found
    rw [Bool.and_eq_true, Bool.and_eq_true, decide_eq_true_eq, decide_eq_true_eq] at within
    have landing := beyond _ (List.mem_of_find?_eq_some found) (Nat.le_trans high within.1.2)
    dsimp only at landing
    show (Char.ofNat _).toNat < 48 ∨ 102 < (Char.ofNat _).toNat ∧ (Char.ofNat _).toNat ≠ 120
    rcases toNat_ofNat (Int.ofNat c.toNat + shift).toNat with valid | zero
    · rw [valid, Int.ofNat_eq_natCast]
      omega
    · exact Or.inl (zero ▸ by decide)
  · exact ⟨c, List.mem_singleton_self c, foreign_of_not_low (Nat.not_lt.mpr high)⟩

/-! ## Texts -/

theorem lowerAfter_low {cs : List Char} (low : ∀ c ∈ cs, c.toNat < 0xC0) (before : List Char) :
    lowerAfter before (ofChars cs) = ofChars (cs.map Char.toLower) := by
  induction cs generalizing before with
  | nil => rfl
  | cons c cs ih =>
    obtain ⟨first, rest⟩ := List.forall_mem_cons.mp low
    have other : c ≠ 'Σ' := by
      rintro rfl
      exact absurd first (by decide)
    show lowerAfter before (.char c :: ofChars cs) = .char c.toLower :: ofChars (cs.map Char.toLower)
    rw [lowerAfter, if_neg other, lowerChar_low first, ih rest]
    rfl

/-- What is not of low code leaves a mark in the small letters. -/
theorem exists_foreign {t : Text} {p : Point} (inside : p ∈ t) (high : ¬ Low p)
    (before : List Char) : ∃ q ∈ lowerAfter before t, Foreign q := by
  induction t generalizing before with
  | nil => cases inside
  | cons first t ih =>
    rcases List.mem_cons.mp inside with rfl | later
    · cases p with
      | half low =>
        exact ⟨_, List.mem_cons_self .., foreign_of_not_low high⟩
      | char c =>
        rw [lowerAfter]
        have small : ∃ d ∈ (if c = 'Σ' then
            if reachesCased before && !reachesCased (chars t) then ['ς'] else ['σ']
            else lowerChar c), Foreign (.char d) := by
          split
          · split
            · exact ⟨_, List.mem_singleton_self _, by decide⟩
            · exact ⟨_, List.mem_singleton_self _, by decide⟩
          · exact lowerChar_high (Nat.le_of_not_lt high)
        obtain ⟨d, kept, foreign⟩ := small
        exact ⟨.char d, List.mem_append_left _ (List.mem_map_of_mem kept), foreign⟩
    · cases first with
      | half low =>
        obtain ⟨q, kept, foreign⟩ := ih later ((Point.half low).toChar :: before)
        exact ⟨q, List.mem_cons_of_mem _ kept, foreign⟩
      | char c =>
        obtain ⟨q, kept, foreign⟩ := ih later (c :: before)
        exact ⟨q, List.mem_append_right _ kept, foreign⟩

end Text

namespace Address

open Text (Low Foreign)

theorem not_foreign {t : Text} {a : Address} (read : ofText? t = some a) :
    ∀ p ∈ t, ¬ Foreign p := by
  have digits {ds : List Char} (forty : Forty a.bits.toNat ds) :
      ∀ p ∈ Text.ofChars ds, ¬ Foreign p := by
    intro p inside
    obtain ⟨c, kept, rfl⟩ := List.mem_map.mp inside
    obtain ⟨d, value⟩ := Option.isSome_iff_exists.mp (forty.plain c kept)
    have range := Hex.toNat_of_value value
    show ¬ (c.toNat < 48 ∨ 102 < c.toNat ∧ c.toNat ≠ 120)
    omega
  have marked {x : Char} {ds : List Char} (mark : ¬ Foreign (.char x))
      (forty : Forty a.bits.toNat ds) : ∀ p ∈ Text.ofChars ('0' :: x :: ds), ¬ Foreign p :=
    List.forall_mem_cons.mpr ⟨by decide, List.forall_mem_cons.mpr ⟨mark, digits forty⟩⟩
  cases ofText_eq_some_iff.mp read with
  | bare forty => exact digits forty
  | small forty => exact marked (by decide) forty
  | capital forty => exact marked (by decide) forty

theorem number_toLower (ds : List Char) : Hex.number (ds.map Char.toLower) = Hex.number ds := by
  induction ds with
  | nil => rfl
  | cons c ds ih =>
    rw [List.map_cons, Hex.number, Hex.number, ih, Text.value_toLower, List.length_map]

theorem forty_toLower {n : ℕ} {ds : List Char} : Forty n (ds.map Char.toLower) ↔ Forty n ds := by
  have plain : (∀ c ∈ ds.map Char.toLower, Hex.isDigit c = true) ↔ ∀ c ∈ ds, Hex.isDigit c = true := by
    simp only [List.forall_mem_map, Hex.isDigit, Text.value_toLower]
  constructor
  · rintro ⟨count, digits, value⟩
    exact ⟨by rwa [List.length_map] at count, plain.mp digits, number_toLower ds ▸ value⟩
  · rintro ⟨count, digits, value⟩
    exact ⟨by rwa [List.length_map], plain.mpr digits, (number_toLower ds).trans value⟩

theorem toLower_eq_iff (c : Char) : (c.toLower = '0' ↔ c = '0') ∧
    (c.toLower = 'x' ↔ c = 'x' ∨ c = 'X') ∧ c.toLower ≠ 'X' := by
  by_cases capital : 65 ≤ c.toNat ∧ c.toNat ≤ 90
  · exact Text.of_capital (P := fun c => (c.toLower = '0' ↔ c = '0') ∧
      (c.toLower = 'x' ↔ c = 'x' ∨ c = 'X') ∧ c.toLower ≠ 'X') (by decide) capital
  · have other : c ≠ 'X' := by
      rintro rfl
      exact capital (by decide)
    rw [Text.toLower_of_not_capital capital]
    simp [other]

/-- Characters that begin with a mark. -/
def Marked (cs : List Char) : Prop :=
  ∃ m ds, cs = '0' :: m :: ds ∧ (m = 'x' ∨ m = 'X')

theorem dropMark_bare {cs : List Char} (bare : ¬ Marked cs) :
    Hex.dropMark (Text.ofChars cs) = Text.ofChars cs := by
  have cut {m : Char} {rest : Text} (h : Text.ofChars cs = .char '0' :: .char m :: rest) :
      ∃ ds, cs = '0' :: m :: ds := by
    match cs, h with
    | _ :: _ :: ds, rfl => exact ⟨ds, rfl⟩
  rcases Hex.dropMark_cases (Text.ofChars cs) with same | small | capital
  · exact same.symm
  · obtain ⟨ds, whole⟩ := cut small
    exact absurd ⟨_, ds, whole, Or.inl rfl⟩ bare
  · obtain ⟨ds, whole⟩ := cut capital
    exact absurd ⟨_, ds, whole, Or.inr rfl⟩ bare

theorem marked_of_toLower {cs : List Char} (marked : Marked (cs.map Char.toLower)) : Marked cs := by
  obtain ⟨m, ds, whole, mark⟩ := marked
  obtain ⟨c, behind, rfl, zero, whole⟩ := List.map_eq_cons_iff.mp whole
  obtain ⟨d, rest, rfl, rfl, -⟩ := List.map_eq_cons_iff.mp whole
  have small := mark.resolve_right (toLower_eq_iff d).2.2
  exact ⟨d, rest, by rw [(toLower_eq_iff c).1.mp zero], (toLower_eq_iff d).2.1.mp small⟩

theorem dropMark_toLower (cs : List Char) :
    Text.chars (Hex.dropMark (Text.ofChars (cs.map Char.toLower))) =
      (Text.chars (Hex.dropMark (Text.ofChars cs))).map Char.toLower := by
  by_cases marked : Marked cs
  · obtain ⟨m, ds, rfl, rfl | rfl⟩ := marked
    · show Text.chars (Text.ofChars (ds.map Char.toLower)) = (Text.chars (Text.ofChars ds)).map _
      rw [Text.chars_ofChars, Text.chars_ofChars]
    · show Text.chars (Text.ofChars (ds.map Char.toLower)) = (Text.chars (Text.ofChars ds)).map _
      rw [Text.chars_ofChars, Text.chars_ofChars]
  · rw [dropMark_bare marked, dropMark_bare (mt marked_of_toLower marked), Text.chars_ofChars,
      Text.chars_ofChars]

theorem exists_chars {t : Text} (low : ∀ p ∈ t, Low p) :
    ∃ cs, t = Text.ofChars cs ∧ ∀ c ∈ cs, c.toNat < 0xC0 := by
  induction t with
  | nil => exact ⟨[], rfl, nofun⟩
  | cons p t ih =>
    obtain ⟨first, rest⟩ := List.forall_mem_cons.mp low
    obtain ⟨cs, rfl, small⟩ := ih rest
    cases p with
    | half low => cases first
    | char c => exact ⟨c :: cs, rfl, List.forall_mem_cons.mpr ⟨first, small⟩⟩

/-- **Small letters** write the same account id. -/
theorem ofText_lower (t : Text) : ofText? (Text.lower t) = ofText? t := by
  by_cases low : ∀ p ∈ t, Low p
  · obtain ⟨cs, rfl, small⟩ := exists_chars low
    ext a
    rw [Text.lower, Text.lowerAfter_low small, ofText?, dropMark_toLower, ofDigits_eq_some_iff,
      forty_toLower, ofText?, ofDigits_eq_some_iff]
  · obtain ⟨p, inside, high⟩ : ∃ p ∈ t, ¬ Low p := by simpa using low
    obtain ⟨q, kept, foreign⟩ := Text.exists_foreign inside high []
    have refused : ofText? t = none := by
      refine Option.eq_none_iff_forall_ne_some.mpr fun a read => not_foreign read p inside ?_
      exact Text.foreign_of_not_low high
    have refusedLower : ofText? (Text.lower t) = none :=
      Option.eq_none_iff_forall_ne_some.mpr fun a read => not_foreign read q kept foreign
    rw [refused, refusedLower]

end Address

end ProofGate
