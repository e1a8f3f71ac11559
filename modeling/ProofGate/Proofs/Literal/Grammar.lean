import ProofGate.Proofs.Literal
import Mathlib.Data.List.DropRight
import Mathlib.Tactic.Ring

/-!
# The grammar of integer literals

What a literal is, apart from how it is read: a sign or none, and a row of figures of any script, in
which single underscores may stand between two figures. Behind a zero a letter may tell the base, and
an underscore may separate it from the row; a row without such a mark begins with zero only if there
are nothing but zeros in it. A text is read as a number exactly if it is a literal of that number and,
where no mark is, has no more figures than a literal may have.
-/

namespace ProofGate.Literal

/-! ## Figures -/

/-- What a character counts as a figure: the plain digits and letters, and the decimal digits of the
other scripts. -/
def figure? (c : Char) : Option ℕ :=
  if c.toNat < 128 then digitValue? c else Text.decimalValue? c

theorem decimalValue_lt {c : Char} {d : ℕ} (h : Text.decimalValue? c = some d) : d < 10 := by
  obtain ⟨first, found, rfl⟩ := Option.map_eq_some_iff.mp h
  have inside := List.find?_some found
  simp only [Bool.and_eq_true, decide_eq_true_eq] at inside
  omega

theorem digitValue_plainDigit (c : Char) : digitValue? (plainDigit c) = figure? c := by
  unfold plainDigit figure?
  split
  · rfl
  · next wide =>
    split
    · next d value =>
      rw [value]
      exact digitValue_digit d (lt_trans (decimalValue_lt value) (by decide))
    · next other =>
      rw [other]
      cases value : digitValue? c with
      | none => rfl
      | some d => exact absurd (toNat_of_digitValue value).2 (by omega)

/-- A plain character that is no decimal digit is written by itself only. -/
theorem plainDigit_eq_iff {a c : Char} (plain : a.toNat < 128)
    (sign : ∀ d < 10, Numeral.digit d ≠ a) : plainDigit c = a ↔ c = a := by
  constructor
  · intro same
    unfold plainDigit at same
    split at same
    · exact same
    · split at same
      · next d value => exact absurd same (sign d (decimalValue_lt value))
      · exact same
  · rintro rfl
    exact if_pos plain

theorem digitValue_eq_zero_iff {c : Char} : digitValue? c = some 0 ↔ c = '0' := by
  constructor
  · intro value
    have range := toNat_of_digitValue value
    have codes : ∀ n < 123, digitValue? (Char.ofNat n) = some 0 → n = 48 := by decide
    rw [← Char.ofNat_toNat c] at value
    rw [← Char.ofNat_toNat c, codes c.toNat (by omega) value]
  · rintro rfl
    rfl

theorem plainDigit_eq_zero_iff {c : Char} : plainDigit c = '0' ↔ figure? c = some 0 := by
  rw [← digitValue_plainDigit, digitValue_eq_zero_iff]

/-! ## Rows -/

/-- Figures of a base with single underscores between them, and what each counts. -/
inductive Row (base : ℕ) : List Char → List ℕ → Prop where
  | last {c : Char} {d : ℕ} : figure? c = some d → d < base → Row base [c] [d]
  | next {c : Char} {d : ℕ} {cs : List Char} {ds : List ℕ} : figure? c = some d → d < base →
      Row base cs ds → Row base (c :: cs) (d :: ds)
  | gap {c : Char} {d : ℕ} {cs : List Char} {ds : List ℕ} : figure? c = some d → d < base →
      Row base cs ds → Row base (c :: '_' :: cs) (d :: ds)

/-- What may stand behind a figure: nothing, or the rest of its row, which an underscore may
separate from it. -/
def Follows (base : ℕ) (cs : List Char) (ds : List ℕ) : Prop :=
  cs = [] ∧ ds = [] ∨ Row base cs ds ∨ ∃ rest, cs = '_' :: rest ∧ Row base rest ds

theorem not_row_nil {base : ℕ} {ds : List ℕ} : ¬ Row base [] ds := nofun

theorem row_cons_iff {base : ℕ} {c : Char} {cs : List Char} {ds : List ℕ} :
    Row base (c :: cs) ds ↔
      ∃ d rest, ds = d :: rest ∧ figure? c = some d ∧ d < base ∧ Follows base cs rest := by
  constructor
  · intro row
    cases row with
    | last figure small => exact ⟨_, _, rfl, figure, small, Or.inl ⟨rfl, rfl⟩⟩
    | next figure small row => exact ⟨_, _, rfl, figure, small, Or.inr (Or.inl row)⟩
    | gap figure small row => exact ⟨_, _, rfl, figure, small, Or.inr (Or.inr ⟨_, rfl, row⟩)⟩
  · rintro ⟨d, rest, rfl, figure, small, ⟨rfl, rfl⟩ | row | ⟨_, rfl, row⟩⟩
    · exact .last figure small
    · exact .next figure small row
    · exact .gap figure small row

/-- **Scanning.** A row is what is scanned to its end, from a place where a figure is due; behind a
figure it is what may follow there. -/
theorem scan_eq_some_iff (base : ℕ) (cs : List Char) : ∀ ds,
    (scan? base true (cs.map plainDigit) = some (ds, []) ↔ Row base cs ds) ∧
      (scan? base false (cs.map plainDigit) = some (ds, []) ↔ Follows base cs ds) := by
  induction cs with
  | nil =>
    intro ds
    refine ⟨⟨nofun, nofun⟩, ?_⟩
    simp [scan?, Follows, not_row_nil, eq_comm]
  | cons c cs ih =>
    intro ds
    have separator : plainDigit c = '_' ↔ c = '_' := plainDigit_eq_iff (by decide) (by decide)
    rw [List.map_cons, scan?, scan?, digitValue_plainDigit]
    cases value : (figure? c).filter (· < base) with
    | some d =>
      obtain ⟨figure, small⟩ := Option.filter_eq_some_iff.mp value
      have row : (scan? base false (cs.map plainDigit)).map (fun r => (d :: r.1, r.2)) =
          some (ds, []) ↔ Row base (c :: cs) ds := by
        rw [row_cons_iff, Option.map_eq_some_iff]
        constructor
        · rintro ⟨⟨rest, _⟩, scanned, same⟩
          cases same
          exact ⟨d, rest, rfl, figure, of_decide_eq_true small, (ih rest).2.mp scanned⟩
        · rintro ⟨d', rest, rfl, figure', _, follows⟩
          cases figure.symm.trans figure'
          exact ⟨(rest, []), (ih rest).2.mpr follows, rfl⟩
      refine ⟨row, row.trans ⟨fun row => Or.inr (Or.inl row), ?_⟩⟩
      rintro (⟨⟨⟩, _⟩ | row | ⟨_, same, _⟩)
      · exact row
      · cases same
        cases figure
    | none =>
      have other : ¬ Row base (c :: cs) ds := by
        rw [row_cons_iff]
        rintro ⟨d, _, _, figure, small, _⟩
        rw [figure, Option.filter_some, if_pos (decide_eq_true small)] at value
        cases value
      simp only [other, if_true, Bool.false_eq_true, if_false, reduceCtorEq, true_and]
      by_cases gap : c = '_'
      · rw [if_pos (separator.mpr gap), (ih ds).1, gap]
        constructor
        · exact fun row => Or.inr (Or.inr ⟨cs, rfl, row⟩)
        · rintro (⟨⟨⟩, _⟩ | row | ⟨_, same, row⟩)
          · exact absurd (gap ▸ row) other
          · cases same
            exact row
      · rw [if_neg (mt separator.mp gap)]
        constructor
        · intro same
          cases same
        · rintro (⟨⟨⟩, _⟩ | row | ⟨_, same, _⟩)
          · exact absurd row other
          · exact absurd (List.cons.inj same).1 gap

/-- Characters are a row of no two lists of figures. -/
theorem Row.unique {base : ℕ} {cs : List Char} {ds ds' : List ℕ} (row : Row base cs ds)
    (again : Row base cs ds') : ds = ds' := by
  have scanned := ((scan_eq_some_iff base cs ds).1).mpr row
  cases scanned.symm.trans (((scan_eq_some_iff base cs ds').1).mpr again)
  rfl

/-- Plain digits without underscores are a row. -/
theorem Row.of_counts {base : ℕ} {cs : List Char} {ds : List ℕ} (counts : Counts base cs ds)
    (some : cs ≠ []) : Row base cs ds := by
  induction counts with
  | nil => exact absurd rfl some
  | @cons c d cs ds first rest ih =>
    have figure : figure? c = .some d := by
      rw [figure?, if_pos (lt_of_le_of_lt (toNat_of_digitValue first.1).2 (by decide)), first.1]
    cases rest with
    | nil => exact .last figure first.2
    | cons => exact .next figure first.2 (ih (List.cons_ne_nil _ _))

theorem ofScan_eq_ok_iff {limited : Bool} {base : ℕ} {cs : List Char} {n : ℕ} :
    ofScan limited base (cs.map plainDigit) = .ok n ↔
      ∃ ds, Row base cs ds ∧ (limited = true → ds.length ≤ maxDigits) ∧ ofDigits base ds = n := by
  simp only [← (scan_eq_some_iff base cs _).1]
  unfold ofScan
  cases scanned : scan? base true (cs.map plainDigit) with
  | none => simp
  | some r =>
    obtain ⟨ds, rest⟩ := r
    dsimp only
    constructor
    · intro read
      split at read
      · cases read
      · next few =>
        split at read
        · next done =>
          cases read
          rw [List.isEmpty_iff] at done
          rw [done]
          refine ⟨ds, rfl, fun isLimited => ?_, rfl⟩
          simpa [isLimited] using few
        · cases read
    · rintro ⟨ds', same, few, value⟩
      cases same
      have short : ¬ (limited && decide (maxDigits < ds.length)) = true := by
        rw [Bool.and_eq_true, decide_eq_true_eq]
        exact fun ⟨isLimited, many⟩ => absurd (few isLimited) (by omega)
      rw [if_neg short, value]
      rfl

/-! ## Literals without a sign -/

theorem ofDigits_cons (base d : ℕ) (ds : List ℕ) :
    ofDigits base (d :: ds) = d * base ^ ds.length + ofDigits base ds := by
  have shifted (n : ℕ) (ds : List ℕ) : ds.foldl (fun n d => n * base + d) n =
      n * base ^ ds.length + ofDigits base ds := by
    induction ds generalizing n with
    | nil => simp [ofDigits]
    | cons d ds ih =>
      rw [ofDigits, List.foldl_cons, List.foldl_cons, ih, ih (0 * base + d), List.length_cons]
      ring
  rw [ofDigits, List.foldl_cons, shifted]
  ring

theorem ofDigits_eq_zero_iff {base : ℕ} (some : 0 < base) {ds : List ℕ} :
    ofDigits base ds = 0 ↔ ∀ d ∈ ds, d = 0 := by
  induction ds with
  | nil => simp [ofDigits]
  | cons d ds ih =>
    rw [ofDigits_cons, Nat.add_eq_zero_iff, ih, List.forall_mem_cons, Nat.mul_eq_zero,
      or_iff_left (Nat.pow_pos some).ne']

/-- A number has as many figures as its first one that is not zero demands. -/
theorem pow_le_ofDigits {base d : ℕ} {ds : List ℕ} (some : d ≠ 0) :
    base ^ ds.length ≤ ofDigits base (d :: ds) := by
  rw [ofDigits_cons]
  exact (Nat.le_mul_of_pos_left _ (Nat.pos_of_ne_zero some)).trans (Nat.le_add_right _ _)

/-- A literal without a sign, and its number. In decimal it is a row of figures. If the base is to be
detected, a row that stands alone is decimal and has no zero in front unless all of it is zero, and
the row behind a zero and a mark is in the base of the mark. -/
inductive Magnitude : Base → List Char → ℕ → Prop where
  | decimal {cs : List Char} {ds : List ℕ} : Row 10 cs ds → Magnitude .decimal cs (ofDigits 10 ds)
  | plain {cs : List Char} {ds : List ℕ} : Row 10 cs ds → ds.head? ≠ some 0 →
      Magnitude .detected cs (ofDigits 10 ds)
  | zeros {cs : List Char} {ds : List ℕ} : Row 10 cs ds → (∀ d ∈ ds, d = 0) →
      Magnitude .detected cs 0
  | marked {z m : Char} {base : ℕ} {cs : List Char} {ds : List ℕ} : figure? z = some 0 →
      Mark m base → Row base cs ds → Magnitude .detected (z :: m :: cs) (ofDigits base ds)
  | spaced {z m : Char} {base : ℕ} {cs : List Char} {ds : List ℕ} : figure? z = some 0 →
      Mark m base → Row base cs ds → Magnitude .detected (z :: m :: '_' :: cs) (ofDigits base ds)

/-- Characters that have, as far as they are a decimal row, no more figures than a literal may
have. -/
def Few (cs : List Char) : Prop :=
  ∀ ds, Row 10 cs ds → ds.length ≤ maxDigits

/-- The letters of marks are neither decimal figures nor underscores. -/
theorem Mark.not_row {m : Char} {base : ℕ} (mark : Mark m base) {z : Char} {cs : List Char}
    {ds : List ℕ} : ¬ Row 10 (z :: m :: cs) ds := by
  rw [row_cons_iff]
  rintro ⟨_, rest, _, _, _, ⟨⟨⟩, _⟩ | row | ⟨_, same, _⟩⟩
  · obtain ⟨d, _, _, figure, small, _⟩ := row_cons_iff.mp row
    cases mark <;> cases figure <;> exact absurd small (by decide)
  · cases mark <;> cases same

theorem Mark.few {m : Char} {base : ℕ} (mark : Mark m base) (z : Char) (cs : List Char) :
    Few (z :: m :: cs) :=
  fun _ row => absurd row mark.not_row

theorem Row.few {cs : List Char} {ds : List ℕ} (row : Row 10 cs ds)
    (short : ds.length ≤ maxDigits) : Few cs := by
  intro ds' again
  rwa [← row.unique again]

theorem ofMarked_eq_ok_iff {base : ℕ} {cs : List Char} {n : ℕ} :
    ofMarked base (cs.map plainDigit) = .ok n ↔ ∃ ds, ofDigits base ds = n ∧
      (Row base cs ds ∨ ∃ rest, cs = '_' :: rest ∧ Row base rest ds) := by
  have separator {c : Char} : plainDigit c = '_' ↔ c = '_' :=
    plainDigit_eq_iff (by decide) (by decide)
  have alone {cs : List Char} : ofScan false base (cs.map plainDigit) = .ok n ↔
      ∃ ds, ofDigits base ds = n ∧ Row base cs ds := by
    rw [ofScan_eq_ok_iff]
    exact exists_congr fun ds => ⟨fun ⟨row, _, value⟩ => ⟨value, row⟩,
      fun ⟨value, row⟩ => ⟨row, nofun, value⟩⟩
  unfold ofMarked
  split
  · next rest spaced =>
    obtain ⟨c, cs', rfl, same, rfl⟩ := List.map_eq_cons_iff.mp spaced
    rw [separator] at same
    subst same
    rw [alone]
    refine exists_congr fun ds => and_congr_right fun _ => ?_
    constructor
    · exact fun row => Or.inr ⟨_, rfl, row⟩
    · rintro (row | ⟨_, ⟨⟩, row⟩)
      · obtain ⟨_, _, _, figure, _⟩ := row_cons_iff.mp row
        cases figure
      · exact row
  · next bare =>
    rw [alone]
    refine exists_congr fun ds => and_congr_right fun _ => ?_
    constructor
    · exact Or.inl
    · rintro (row | ⟨rest, rfl, _⟩)
      · exact row
      · exact absurd rfl (bare (rest.map plainDigit))

theorem Mark.unique {m : Char} {base base' : ℕ} (mark : Mark m base) (again : Mark m base') :
    base = base' := by
  cases mark <;> cases again <;> rfl

/-- Behind a zero and a mark stands a row of the base of the mark, and nothing else. -/
theorem magnitude_marked_iff {z m : Char} {base n : ℕ} {cs : List Char}
    (leading : figure? z = some 0) (mark : Mark m base) :
    Magnitude .detected (z :: m :: cs) n ↔ ofMarked base (cs.map plainDigit) = .ok n := by
  rw [ofMarked_eq_ok_iff]
  constructor
  · intro magnitude
    cases magnitude with
    | plain row _ | zeros row _ => exact absurd row mark.not_row
    | marked _ mark' row =>
      cases mark.unique mark'
      exact ⟨_, rfl, Or.inl row⟩
    | spaced _ mark' row =>
      cases mark.unique mark'
      exact ⟨_, rfl, Or.inr ⟨_, rfl, row⟩⟩
  · rintro ⟨ds, rfl, row | ⟨rest, rfl, row⟩⟩
    · exact .marked leading mark row
    · exact .spaced leading mark row

/-- Without a mark there is a row of tens, which is zero if it begins with zero. -/
theorem magnitude_plain_iff {cs : List Char} {n : ℕ}
    (unmarked : ∀ z m rest, cs = z :: m :: rest → figure? z = some 0 → ∀ base, ¬ Mark m base) :
    Magnitude .detected cs n ↔
      ∃ ds, Row 10 cs ds ∧ (ds.head? = some 0 → n = 0) ∧ ofDigits 10 ds = n := by
  constructor
  · intro magnitude
    cases magnitude with
    | plain row other => exact ⟨_, row, fun zero => absurd zero other, rfl⟩
    | zeros row zeros => exact ⟨_, row, fun _ => rfl, (ofDigits_eq_zero_iff (by decide)).mpr zeros⟩
    | marked leading mark _ => exact absurd mark (unmarked _ _ _ rfl leading _)
    | spaced leading mark _ => exact absurd mark (unmarked _ _ _ rfl leading _)
  · rintro ⟨ds, row, zero, rfl⟩
    by_cases leading : ds.head? = some 0
    · rw [zero leading]
      exact .zeros row ((ofDigits_eq_zero_iff (by decide)).mp (zero leading))
    · exact .plain row leading

theorem ofScan_ten_iff {cs : List Char} {n : ℕ} :
    ofScan true 10 (cs.map plainDigit) = .ok n ↔
      (∃ ds, Row 10 cs ds ∧ ofDigits 10 ds = n) ∧ Few cs := by
  rw [ofScan_eq_ok_iff]
  constructor
  · rintro ⟨ds, row, few, value⟩
    exact ⟨⟨ds, row, value⟩, row.few (few rfl)⟩
  · rintro ⟨⟨ds, row, value⟩, few⟩
    exact ⟨ds, row, fun _ => few ds row, value⟩

/-- What begins with a zero and goes on is read behind a mark, or as zeros. -/
theorem unsigned_leading_iff {z m : Char} {cs : List Char} {n : ℕ}
    (leading : figure? z = some 0) :
    unsigned .detected ((z :: m :: cs).map plainDigit) = .ok n ↔
      Magnitude .detected (z :: m :: cs) n ∧ Few (z :: m :: cs) := by
  have zero : plainDigit z = '0' := plainDigit_eq_zero_iff.mpr leading
  have letter (a : Char) (plain : a.toNat < 128) (sign : ∀ d < 10, Numeral.digit d ≠ a) :
      plainDigit m = a ↔ m = a := plainDigit_eq_iff plain sign
  have tens (k : ℕ) : ofScan true 10 ('0' :: plainDigit m :: cs.map plainDigit) = .ok k ↔
      (∃ ds, Row 10 (z :: m :: cs) ds ∧ ofDigits 10 ds = k) ∧ Few (z :: m :: cs) := by
    rw [← zero, ← List.map_cons, ← List.map_cons, ofScan_ten_iff]
  have marked {base : ℕ} (mark : Mark m base) : ofMarked base (cs.map plainDigit) = .ok n ↔
      Magnitude .detected (z :: m :: cs) n ∧ Few (z :: m :: cs) := by
    rw [magnitude_marked_iff leading mark, and_iff_left (mark.few z cs)]
  rw [List.map_cons, List.map_cons, zero]
  unfold unsigned
  simp only [letter 'x' (by decide) (by decide), letter 'X' (by decide) (by decide),
    letter 'o' (by decide) (by decide), letter 'O' (by decide) (by decide),
    letter 'b' (by decide) (by decide), letter 'B' (by decide) (by decide)]
  split
  · next x =>
    rcases x with rfl | rfl
    · exact marked .x
    · exact marked .X
  split
  · next o =>
    rcases o with rfl | rfl
    · exact marked .o
    · exact marked .O
  split
  · next b =>
    rcases b with rfl | rfl
    · exact marked .b
    · exact marked .B
  · next x o b =>
    have unmarked (base : ℕ) : ¬ Mark m base := by
      intro mark
      cases mark <;> simp at x o b
    have head {ds : List ℕ} (row : Row 10 (z :: m :: cs) ds) : ds.head? = some 0 := by
      obtain ⟨d, rest, rfl, figure, _⟩ := row_cons_iff.mp row
      exact figure.symm.trans leading
    rw [magnitude_plain_iff (by rintro _ _ _ ⟨⟩ _; exact unmarked), bind_eq_ok]
    simp only [tens]
    constructor
    · rintro ⟨k, ⟨⟨ds, row, value⟩, few⟩, read⟩
      split at read
      · next none =>
        cases read
        exact ⟨⟨ds, row, fun _ => rfl, value.trans none⟩, few⟩
      · cases read
    · rintro ⟨⟨ds, row, zero, value⟩, few⟩
      obtain rfl := zero (head row)
      exact ⟨0, ⟨⟨ds, row, value⟩, few⟩, rfl⟩

/-- **Unsigned literals.** What is read without a sign is a literal that is not too long. -/
theorem unsigned_eq_ok_iff {base : Base} {cs : List Char} {n : ℕ} :
    unsigned base (cs.map plainDigit) = .ok n ↔ Magnitude base cs n ∧ Few cs := by
  cases base with
  | decimal =>
    show ofScan true 10 (cs.map plainDigit) = .ok n ↔ _
    rw [ofScan_ten_iff]
    refine and_congr_left fun _ => ⟨?_, ?_⟩
    · rintro ⟨ds, row, rfl⟩
      exact .decimal row
    · rintro ⟨row⟩
      exact ⟨_, row, rfl⟩
  | detected =>
    by_cases leading : ∃ z m rest, cs = z :: m :: rest ∧ figure? z = some 0
    · obtain ⟨z, m, rest, rfl, leading⟩ := leading
      exact unsigned_leading_iff leading
    · have read : unsigned .detected (cs.map plainDigit) = ofScan true 10 (cs.map plainDigit) := by
        unfold unsigned
        split
        · rfl
        · next m rest begins =>
          obtain ⟨z, cs', rfl, zero, begins⟩ := List.map_eq_cons_iff.mp begins
          obtain ⟨m', rest', rfl, _, _⟩ := List.map_eq_cons_iff.mp begins
          exact absurd ⟨z, m', rest', rfl, plainDigit_eq_zero_iff.mp zero⟩ leading
        · rfl
      rw [read, ofScan_ten_iff, magnitude_plain_iff fun z m rest same zero =>
        absurd ⟨z, m, rest, same, zero⟩ leading]
      refine and_congr_left fun _ => exists_congr fun ds => and_congr_right fun row => ?_
      refine ⟨fun value => ⟨fun zero => ?_, value⟩, And.right⟩
      -- A row that begins with zero has nothing behind it, for it does not go on.
      cases row with
      | last =>
        cases zero
        exact value.symm
      | @next c _ cs' _ figure _ row =>
        cases zero
        cases row <;> exact absurd ⟨_, _, _, rfl, figure⟩ leading
      | gap figure _ _ =>
        cases zero
        exact absurd ⟨_, _, _, rfl, figure⟩ leading

/-! ## Signs -/

/-- A literal with or without a sign. -/
inductive Signed (unsigned : List Char → ℕ → Prop) : List Char → ℤ → Prop where
  | bare {cs : List Char} {n : ℕ} : unsigned cs n → Signed unsigned cs n
  | plus {cs : List Char} {n : ℕ} : unsigned cs n → Signed unsigned ('+' :: cs) n
  | minus {cs : List Char} {n : ℕ} : unsigned cs n → Signed unsigned ('-' :: cs) (-n)

/-- The literals that are read. -/
def Readable (base : Base) (cs : List Char) (n : ℕ) : Prop :=
  Magnitude base cs n ∧ Few cs

theorem Row.head {base : ℕ} {c : Char} {cs : List Char} {ds : List ℕ}
    (row : Row base (c :: cs) ds) : ∃ d, figure? c = some d ∧ d < base := by
  obtain ⟨d, _, _, figure, small, _⟩ := row_cons_iff.mp row
  exact ⟨d, figure, small⟩

/-- A literal without a sign begins with a decimal figure. -/
theorem Magnitude.head {base : Base} {cs : List Char} {n : ℕ} (magnitude : Magnitude base cs n) :
    ∃ c rest d, cs = c :: rest ∧ figure? c = some d ∧ d < 10 := by
  have head {cs : List Char} {ds : List ℕ} (row : Row 10 cs ds) :
      ∃ c rest d, cs = c :: rest ∧ figure? c = some d ∧ d < 10 := by
    cases cs with
    | nil => exact absurd row not_row_nil
    | cons c rest =>
      obtain ⟨d, figure, small⟩ := row.head
      exact ⟨c, rest, d, rfl, figure, small⟩
  cases magnitude with
  | decimal row | plain row _ | zeros row _ => exact head row
  | marked leading _ _ | spaced leading _ _ => exact ⟨_, _, 0, rfl, leading, by decide⟩

theorem Magnitude.not_signed {base : Base} {sign : Char} (is_sign : sign = '-' ∨ sign = '+')
    {cs : List Char} {n : ℕ} : ¬ Magnitude base (sign :: cs) n := by
  intro magnitude
  obtain ⟨_, _, _, ⟨⟩, figure, _⟩ := magnitude.head
  rcases is_sign with rfl | rfl <;> cases figure

theorem Signed.minus_iff {p : List Char → ℕ → Prop} {cs : List Char} {n : ℤ}
    (bare : ∀ m, ¬ p ('-' :: cs) m) : Signed p ('-' :: cs) n ↔ ∃ m : ℕ, p cs m ∧ -(m : ℤ) = n := by
  constructor
  · intro signed
    cases signed with
    | bare unsigned => exact absurd unsigned (bare _)
    | minus unsigned => exact ⟨_, unsigned, rfl⟩
  · rintro ⟨m, unsigned, rfl⟩
    exact .minus unsigned

theorem Signed.plus_iff {p : List Char → ℕ → Prop} {cs : List Char} {n : ℤ}
    (bare : ∀ m, ¬ p ('+' :: cs) m) : Signed p ('+' :: cs) n ↔ ∃ m : ℕ, p cs m ∧ (m : ℤ) = n := by
  constructor
  · intro signed
    cases signed with
    | bare unsigned => exact absurd unsigned (bare _)
    | plus unsigned => exact ⟨_, unsigned, rfl⟩
  · rintro ⟨m, unsigned, rfl⟩
    exact .plus unsigned

theorem Signed.bare_iff {p : List Char → ℕ → Prop} {cs : List Char} {n : ℤ}
    (noMinus : ∀ rest, cs ≠ '-' :: rest) (noPlus : ∀ rest, cs ≠ '+' :: rest) :
    Signed p cs n ↔ ∃ m : ℕ, p cs m ∧ (m : ℤ) = n := by
  constructor
  · intro signed
    cases signed with
    | bare unsigned => exact ⟨_, unsigned, rfl⟩
    | plus _ => exact absurd rfl (noPlus _)
    | minus _ => exact absurd rfl (noMinus _)
  · rintro ⟨m, unsigned, rfl⟩
    exact .bare unsigned

/-- **Literals.** A number is read from a literal of it with blanks around, and from nothing else. -/
theorem readChars_eq_ok_iff {base : Base} {cs : List Char} {n : ℤ} :
    readChars base cs = .ok n ↔
      Signed (Readable base) (Text.trimEnds Text.isNumeralBlank cs) n := by
  unfold readChars
  generalize Text.trimEnds Text.isNumeralBlank cs = cs
  have minus {c : Char} : plainDigit c = '-' ↔ c = '-' :=
    plainDigit_eq_iff (by decide) (by decide)
  have plus {c : Char} : plainDigit c = '+' ↔ c = '+' :=
    plainDigit_eq_iff (by decide) (by decide)
  split
  · next rest signed =>
    obtain ⟨c, cs, rfl, sign, rfl⟩ := List.map_eq_cons_iff.mp signed
    rw [minus.mp sign, Signed.minus_iff fun _ readable => Magnitude.not_signed (Or.inl rfl) readable.1]
    simp only [map_eq_ok, unsigned_eq_ok_iff]
    rfl
  · next rest signed =>
    obtain ⟨c, cs, rfl, sign, rfl⟩ := List.map_eq_cons_iff.mp signed
    rw [plus.mp sign, Signed.plus_iff fun _ readable => Magnitude.not_signed (Or.inr rfl) readable.1]
    simp only [map_eq_ok, unsigned_eq_ok_iff]
    rfl
  · next noMinus noPlus =>
    rw [Signed.bare_iff]
    · simp only [map_eq_ok, unsigned_eq_ok_iff]
      rfl
    · rintro rest rfl
      exact noMinus _ rfl
    · rintro rest rfl
      exact noPlus _ rfl

/-- The literals of a base, of whatever length. -/
abbrev Denotes (base : Base) : List Char → ℤ → Prop :=
  Signed (Magnitude base)

theorem Signed.mono {p q : List Char → ℕ → Prop} {cs : List Char} {n : ℤ} (signed : Signed p cs n)
    (weaker : ∀ cs, p cs n.natAbs → q cs n.natAbs) : Signed q cs n := by
  cases signed with
  | bare unsigned => exact .bare (weaker _ unsigned)
  | plus unsigned => exact .plus (weaker _ unsigned)
  | minus unsigned =>
    rw [Int.natAbs_neg, Int.natAbs_natCast] at weaker
    exact .minus (weaker _ unsigned)

/-- No characters are literals of two numbers. -/
theorem Magnitude.unique {cs : List Char} {m n : ℕ} (first : Magnitude .detected cs m)
    (again : Magnitude .detected cs n) : m = n := by
  by_cases marked : ∃ z c base rest, cs = z :: c :: rest ∧ figure? z = some 0 ∧ Mark c base
  · obtain ⟨z, c, base, rest, rfl, leading, mark⟩ := marked
    rw [magnitude_marked_iff leading mark] at first again
    exact Except.ok.inj (first.symm.trans again)
  · have unmarked : ∀ z c rest, cs = z :: c :: rest → figure? z = some 0 → ∀ base, ¬ Mark c base :=
      fun z c rest same leading base mark => marked ⟨z, c, base, rest, same, leading, mark⟩
    rw [magnitude_plain_iff unmarked] at first again
    obtain ⟨ds, row, _, rfl⟩ := first
    obtain ⟨ds', row', _, rfl⟩ := again
    rw [row.unique row']

theorem denotes_unique {cs : List Char} {m n : ℤ} (first : Denotes .detected cs m)
    (again : Denotes .detected cs n) : m = n := by
  cases first with
  | bare magnitude =>
    rw [Denotes, Signed.bare_iff] at again
    · obtain ⟨k, magnitude', rfl⟩ := again
      rw [magnitude.unique magnitude']
    · rintro rest rfl
      exact Magnitude.not_signed (Or.inl rfl) magnitude
    · rintro rest rfl
      exact Magnitude.not_signed (Or.inr rfl) magnitude
  | plus magnitude =>
    rw [Denotes, Signed.plus_iff fun _ => Magnitude.not_signed (Or.inr rfl)] at again
    obtain ⟨k, magnitude', rfl⟩ := again
    rw [magnitude.unique magnitude']
  | minus magnitude =>
    rw [Denotes, Signed.minus_iff fun _ => Magnitude.not_signed (Or.inl rfl)] at again
    obtain ⟨k, magnitude', rfl⟩ := again
    rw [magnitude.unique magnitude']

/-- A literal whose base is detected is too long only if its number is zero or as long. -/
theorem Magnitude.few {cs : List Char} {n k : ℕ} (magnitude : Magnitude .detected cs n)
    (some : n ≠ 0) (small : n < 10 ^ k) (short : k ≤ maxDigits) : Few cs := by
  cases magnitude with
  | @plain _ ds row head =>
    refine row.few (le_trans ?_ short)
    cases ds with
    | nil => exact Nat.zero_le _
    | cons d ds =>
      have first : d ≠ 0 := fun zero => head (congrArg Option.some zero)
      have bound := lt_of_le_of_lt (pow_le_ofDigits first) small
      exact (Nat.pow_lt_pow_iff_right (by decide)).mp bound
  | zeros => exact absurd rfl some
  | marked _ mark _ | spaced _ mark _ => exact mark.few _ _

/-! ## Blanks -/

/-- What was trimmed is not trimmed again of less. -/
theorem trimEnds_trimEnds {α β : Type} {p : α → Bool} {q : β → Bool} {f : α → β}
    (less : ∀ a, q (f a) = true → p a = true) (as : List α) :
    Text.trimEnds q ((Text.trimEnds p as).map f) = (Text.trimEnds p as).map f := by
  have kept (a : α) (not : ¬ p a = true) : ¬ q (f a) = true := fun h => not (less a h)
  show (((as.dropWhile p).rdropWhile p).map f |>.dropWhile q).rdropWhile q = _
  have front : (((as.dropWhile p).rdropWhile p).map f).dropWhile q =
      ((as.dropWhile p).rdropWhile p).map f := by
    rw [List.dropWhile_eq_self_iff]
    intro some
    rw [List.length_map] at some
    have first := List.rdropWhile_prefix p (as.dropWhile p)
    rw [List.getElem_map, first.getElem some]
    exact kept _ (List.dropWhile_get_zero_not p as (lt_of_lt_of_le some first.length_le))
  rw [front]
  refine List.rdropWhile_eq_self_iff.mpr ?_
  intro some
  rw [List.getLast_map]
  exact kept _ (List.rdropWhile_last_not p _ _)

theorem isBlank_of_isNumeralBlank {c : Char} (h : Text.isNumeralBlank c = true) :
    Text.isBlank c = true := by
  simp only [Text.isBlank, Text.isNumeralBlank, Text.Ranges.has, List.any_append,
    Bool.or_eq_true] at h ⊢
  refine h.imp_left fun narrow => ?_
  simp only [List.any_cons, List.any_nil, Bool.or_false, Bool.or_eq_true, Bool.and_eq_true,
    decide_eq_true_eq] at narrow ⊢
  omega

/-- Nothing more is trimmed from a trimmed text when it is read. -/
theorem trimEnds_trim (t : Text) :
    Text.trimEnds Text.isNumeralBlank (Text.trim t).chars = (Text.trim t).chars := by
  refine trimEnds_trimEnds (fun p h => ?_) t
  cases p with
  | char c => exact isBlank_of_isNumeralBlank h
  | half _ => cases h

/-! ## Numerals -/

/-- The digits of a number are a literal of it, however many they are. -/
theorem magnitude_digits (n : ℕ) : Magnitude .detected (Numeral.digits 10 n) n := by
  have ten : 2 ≤ 10 ∧ 10 ≤ 36 := by decide
  obtain ⟨ds, counts, value⟩ := Numeral.counts_digits ten.1 ten.2 n
  have row := Row.of_counts counts (Numeral.digits_ne_nil _ _)
  by_cases zero : n = 0
  · subst zero
    exact .zeros row ((ofDigits_eq_zero_iff (by decide)).mp value)
  · have head := Numeral.head_digits ten.1 ten.2 (Nat.pos_of_ne_zero zero)
    have first : ds.head? ≠ some 0 := by
      generalize Numeral.digits 10 n = cs at counts head
      cases counts with
      | nil => nofun
      | cons figure _ =>
        intro leading
        cases leading
        exact head (congrArg some (digitValue_eq_zero_iff.mp figure.1))
    have plain := Magnitude.plain row first
    rwa [value] at plain

theorem denotes_ofInt (n : ℤ) : Denotes .detected (Text.ofString (Numeral.ofInt n)).chars n := by
  rw [Text.ofString, Text.chars_ofChars]
  cases n with
  | ofNat n =>
    show Denotes .detected (Numeral.ofNat n).toList (n : ℤ)
    rw [Numeral.ofNat, String.toList_ofList]
    exact .bare (magnitude_digits n)
  | negSucc n =>
    show Denotes .detected ("-" ++ Numeral.ofNat (n + 1)).toList (-((n + 1 : ℕ) : ℤ))
    have text : ("-" ++ Numeral.ofNat (n + 1)).toList = '-' :: Numeral.digits 10 (n + 1) := by
      rw [String.toList_append, Numeral.ofNat, String.toList_ofList, String.toList_ofList]
      rfl
    rw [text]
    exact .minus (magnitude_digits (n + 1))

end ProofGate.Literal
