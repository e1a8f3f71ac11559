import ProofGate.Proofs.Double
import ProofGate.Proofs.Literal.Grammar
import ProofGate.Proofs.Member
import ProofGate.Proofs.Value
import Mathlib.Algebra.Order.Floor.Semifield
import Mathlib.Data.Rat.Floor
import Mathlib.Data.List.Infix

/-!
# Values that stand for tags

A tag is meant by a number equal to its own, by its name in any case and by a literal of its number.
All of these are taken for the tag. So are two forms that stand for none: a number that goes beyond
the tag's by less than one, and bytes that spell it out in decimal. All else is told to be
unsupported, apart from an infinite number, which ends the reading in another way.
-/

namespace ProofGate

/-! ## Integer parts -/

namespace Double

/-- What is left of a number without a sign is its floor. -/
theorem truncate_unsigned (m : ℕ) (e : ℤ) :
    (finite false m e).truncate? = some (⌊worth false m e⌋₊ : ℤ) := by
  cases e with
  | ofNat k =>
    have whole : worth false m (.ofNat k) = (m * twoTo k : ℕ) := by
      rw [Nat.cast_mul, twoTo_rat]
      rfl
    rw [whole, Nat.floor_natCast]
    rfl
  | negSucc k =>
    have parts : worth false m (.negSucc k) = (m : ℚ) / (twoTo (k + 1) : ℕ) := by
      rw [twoTo_rat, div_eq_mul_inv, ← zpow_neg]
      rfl
    rw [parts, Nat.floor_div_eq_div]
    rfl

theorem truncate_signed_le (m : ℕ) (e : ℤ) :
    ∃ k ≤ 0, (finite true m e).truncate? = some k := by
  refine ⟨_, ?_, rfl⟩
  rw [if_pos rfl, Left.neg_nonpos_iff]
  exact Int.natCast_nonneg _

/-- A positive integer is left of the numbers from it up to the next one. -/
theorem truncate_eq_some_iff {x : Double} {n : ℕ} (positive : 0 < n) :
    x.truncate? = some (n : ℤ) ↔ ∃ q, x.rational? = some q ∧ (n : ℚ) ≤ q ∧ q < n + 1 := by
  have exact_value (q r : ℚ) : some q = some r ↔ r = q := by rw [Option.some.injEq, eq_comm]
  cases x with
  | infinite s => simp [truncate?, rational?]
  | nan => simp [truncate?, rational?]
  | finite s m e =>
    have magnitude : (0 : ℚ) ≤ m * 2 ^ e := mul_nonneg (Nat.cast_nonneg m) (two_zpow_pos e).le
    simp only [rational?, exact_value, exists_eq_left]
    cases s with
    | false =>
      rw [truncate_unsigned, Option.some.injEq, Int.natCast_inj]
      exact Nat.floor_eq_iff magnitude
    | true =>
      obtain ⟨k, nonpos, cut⟩ := truncate_signed_le m e
      rw [cut, Option.some.injEq]
      have opposite : worth true m e = -(m * 2 ^ e) := neg_mul _ _
      have above : (0 : ℚ) < n := Nat.cast_pos.mpr positive
      constructor
      · intro same
        omega
      · rintro ⟨low, _⟩
        linarith

end Double

/-! ## Names -/

namespace Text

/-- What the letters that are no plain ones have as capitals, as far as these are plain. -/
def expansions : List (List Char) :=
  [['I'], ['S'], ['S', 'S'], ['F', 'F'], ['F', 'I'], ['F', 'L'], ['F', 'F', 'I'], ['F', 'F', 'L'],
    ['S', 'T']]

theorem upperChar_cases (c : Char) : upperChar c = [c.toUpper] ∨ upperChar c ∈ expansions := by
  unfold upperChar
  split
  case h_11 => exact Or.inl rfl
  all_goals exact Or.inr (by decide)

theorem upperChar_of_plain {c : Char} (plain : c.toUpper.toNat < 128) :
    upperChar c = [c.toUpper] := by
  unfold upperChar
  split
  case h_11 => rfl
  all_goals exact absurd plain (by decide)

/-- A letter whose capitals begin a word in which no expansion stands has one capital only. -/
theorem upperChar_of_append {w : List Char} (own : ∀ e ∈ expansions, ¬ e <:+: w) {c : Char} {t : Text}
    (same : ofChars (upperChar c) ++ t = ofChars w) : upperChar c = [c.toUpper] := by
  rcases upperChar_cases c with single | expansion
  · exact single
  · have points : (upperChar c).map Point.char <+: w.map Point.char := ⟨t, same⟩
    have front := (List.prefix_map_iff_of_injective fun _ _ => Point.char.inj).mp points
    exact absurd front.isInfix (own _ expansion)

theorem upper_ofChars {cs : List Char} (plain : ∀ c ∈ cs, c.toUpper.toNat < 128) :
    upper (ofChars cs) = ofChars (cs.map Char.toUpper) := by
  induction cs with
  | nil => rfl
  | cons c cs ih =>
    rw [List.forall_mem_cons] at plain
    show ofChars (upperChar c) ++ upper (ofChars cs) = _
    rw [upperChar_of_plain plain.1, ih plain.2]
    rfl

/-- A plain word in which nothing stands that another letter expands to is the capitals of its own
letters only. -/
theorem upper_eq_iff {w : List Char} (plain : ∀ c ∈ w, c.toNat < 128)
    (own : ∀ e ∈ expansions, ¬ e <:+: w) {t : Text} :
    upper t = ofChars w ↔ ∃ cs, t = ofChars cs ∧ cs.map Char.toUpper = w := by
  constructor
  · intro same
    clear plain
    induction t generalizing w with
    | nil => exact ⟨[], rfl, (List.map_eq_nil_iff.mp same.symm).symm⟩
    | cons p t ih =>
      cases p with
      | half low => cases w <;> cases same
      | char c =>
        have same : ofChars (upperChar c) ++ upper t = ofChars w := same
        rw [upperChar_of_append own same] at same
        cases w with
        | nil => cases same
        | cons a w =>
          obtain ⟨first, rest⟩ := List.cons.inj same
          cases first
          obtain ⟨cs, rfl, rfl⟩ := ih (fun e he inside =>
            own e he (inside.trans (List.suffix_cons _ _).isInfix)) rest
          exact ⟨c :: cs, rfl, rfl⟩
  · rintro ⟨cs, rfl, rfl⟩
    exact upper_ofChars (List.forall_mem_map.mp plain)

end Text

namespace Tag

variable {t : Tag} {v : Value}

/-- Letters that spell the name of a tag, in any case. -/
def Named (t : Tag) (body : Text) : Prop :=
  ∃ cs, body = Text.ofChars cs ∧ cs.map Char.toUpper = t.name.toList

theorem upper_eq_name_iff {body : Text} :
    Text.upper body = Text.ofString t.name ↔ Named t body := by
  have plain : (t.name.toList.all fun c => decide (c.toNat < 128)) = true := by
    cases t <;> rfl
  refine Text.upper_eq_iff (fun c hc => of_decide_eq_true (List.all_eq_true.mp plain c hc)) ?_
  cases t <;> decide

theorem ofName_eq_some_iff {s : Text} : ofName? s = some t ↔ Named t (Text.trim s) := by
  have upper_iff (t : Tag) :
      (Text.upper (Text.trim s) == Text.ofString t.name) = true ↔ Named t (Text.trim s) := by
    rw [beq_iff_eq, upper_eq_name_iff]
  constructor
  · intro found
    have spelled := List.find?_some found
    exact (upper_iff t).mp spelled
  · intro named
    have apart : Text.ofString (name nft) ≠ Text.ofString (name erc20) := by decide
    have same := upper_eq_name_iff.mpr named
    unfold ofName?
    rw [same]
    cases t <;> decide

/-! ## Numbers -/

theorem code_pos (t : Tag) : 0 < t.code := by
  cases t <;> decide

theorem code_small (t : Tag) : t.code < 10 ^ 2 := by
  cases t <;> decide

theorem ofCode_eq_some_iff {n : ℤ} : ofCode? n = some t ↔ n = t.code := by
  show ofNumber? (.int n) = some t ↔ _
  rw [ofNumber_int]
  cases t with
  | nft =>
    show _ ↔ n = 67
    grind
  | erc20 =>
    show _ ↔ n = 88
    grind

/-- The value of which the whole number is taken. -/
def numeral : Value → Value
  | .text s => .text (Text.trim s)
  | v => v

theorem ofNumber_eq (v : Value) :
    ofNumber v = match Member.wholeNumber .detected (numeral v) with
      | .ok n =>
        match ofCode? n with
        | some t => .ok t
        | none => .error (.unsupportedTag v)
      | .error .infiniteNumber => .error .infiniteNumber
      | .error _ => .error (.unsupportedTag v) := by
  cases v <;> rfl

theorem ofNumber_eq_ok_iff :
    ofNumber v = .ok t ↔ Member.wholeNumber .detected (numeral v) = .ok (t.code : ℤ) := by
  rw [ofNumber_eq]
  split
  · next n whole =>
    rw [whole, Except.ok.injEq, ← ofCode_eq_some_iff]
    split
    · next other tag => rw [tag, Except.ok.injEq, Option.some.injEq]
    · next none => simp [none]
  · next failed => simp [failed]
  · next _ failed => simp [failed]

/-- What a value is told if it is no tag. -/
theorem ofNumber_eq_error {e : Failure} (failed : ofNumber v = .error e) :
    e = .unsupportedTag v ∨ e = .infiniteNumber ∧ ∃ negative, v = .float (.infinite negative) := by
  rw [ofNumber_eq] at failed
  split at failed
  · split at failed
    · cases failed
    · cases failed
      exact Or.inl rfl
  · next infinite =>
    cases failed
    obtain ⟨negative, number⟩ := Member.wholeNumber_eq_infinite_iff.mp infinite
    cases v with
    | text s => cases number
    | null | bool | int | float | bytes | list | object => exact Or.inr ⟨rfl, negative, number⟩
  · cases failed
    exact Or.inl rfl

theorem readNumber_eq_ok_iff {base : Literal.Base} {cs : List Char} {n : ℤ} :
    Member.wholeNumber.readNumber base v cs = .ok n ↔ Literal.readChars base cs = .ok n := by
  unfold Member.wholeNumber.readNumber
  split
  · next read => rw [read, Except.ok.injEq, Except.ok.injEq]
  · next failed => simp [failed]
  · next failed => simp [failed]

/-- Literals of the number of a tag are none too long to be read. -/
theorem read_eq_code_iff {s : Text} :
    Literal.read .detected (Text.trim s) = .ok (t.code : ℤ) ↔
      Literal.Denotes .detected (Text.trim s).chars t.code := by
  rw [Literal.read, Literal.readChars_eq_ok_iff, Literal.trimEnds_trim]
  constructor
  · intro read
    exact read.mono fun _ readable => readable.1
  · intro denotes
    refine denotes.mono fun _ magnitude => ⟨magnitude, ?_⟩
    exact magnitude.few t.code_pos.ne' t.code_small (by decide)

/-! ## Values that stand for a tag -/

/-- Characters of the ASCII bytes; any other byte is none that a literal could have. -/
def ascii (bs : Bytes) : List Char :=
  bs.map fun b => if b < 128 then Char.ofNat b.toNat else '?'

/-- A number that equals the one of a tag, and a text that is, between blanks, its name in any case or
a literal of its number. -/
inductive Stands (t : Tag) : Value → Prop where
  | number {v : Value} : v.rational? = some (t.code : ℚ) → Stands t v
  | name {s : Text} : Named t (Text.trim s) → Stands t (.text s)
  | literal {s : Text} : Literal.Denotes .detected (Text.trim s).chars t.code → Stands t (.text s)

/-- What is taken for a tag although it stands for none: a number less than one beyond it, and bytes
that read as its number in decimal. -/
inductive Mistaken (t : Tag) : Value → Prop where
  | fraction {x : Double} {q : ℚ} : x.rational? = some q → (t.code : ℚ) < q → q < t.code + 1 →
      Mistaken t (.float x)
  | bytes {bs : Bytes} : Literal.Signed (Literal.Readable .decimal)
      (Text.trimEnds Text.isNumeralBlank (ascii bs)) t.code → Mistaken t (.bytes bs)

/-- A decimal figure has no other case. -/
theorem toUpper_of_figure {c : Char} {d : ℕ} (figure : Literal.figure? c = some d) (decimal : d < 10) :
    c.toUpper = c := by
  unfold Char.toUpper
  refine dif_neg ?_
  rintro ⟨low, high⟩
  have low : 97 ≤ c.toNat := low
  have high : c.toNat ≤ 122 := high
  have digit : ¬ ('0' ≤ c ∧ c ≤ '9') := fun inside =>
    absurd (show c.toNat ≤ 57 from inside.2) (by omega)
  rw [Literal.figure?, if_pos (by omega), Literal.digitValue?, if_neg digit,
    if_pos ⟨low, high⟩] at figure
  cases figure
  omega

/-- A name begins with a letter. -/
theorem Named.head {body : Text} (named : Named t body) :
    ∃ c rest, body.chars = c :: rest ∧ (c.toUpper = 'N' ∨ c.toUpper = 'E') := by
  obtain ⟨cs, rfl, upper⟩ := named
  rw [Text.chars_ofChars]
  cases cs with
  | nil => cases t <;> cases upper
  | cons c rest =>
    have first : some c.toUpper = t.name.toList.head? := congrArg List.head? upper
    refine ⟨c, rest, rfl, ?_⟩
    cases t with
    | nft => exact Or.inl (Option.some.inj first)
    | erc20 => exact Or.inr (Option.some.inj first)

/-- A literal begins with a figure or a sign, so no name is one. -/
theorem Named.not_denotes {base : Literal.Base} {body : Text} (named : Named t body) {n : ℤ} :
    ¬ Literal.Denotes base body.chars n := by
  obtain ⟨c, rest, first, letter⟩ := named.head
  rw [first]
  intro denotes
  cases denotes with
  | bare magnitude =>
    obtain ⟨_, _, d, ⟨⟩, figure, decimal⟩ := magnitude.head
    rw [toUpper_of_figure figure decimal] at letter
    rcases letter with rfl | rfl <;> cases figure <;> exact absurd decimal (by decide)
  | plus _ | minus _ => rcases letter with letter | letter <;> cases letter

theorem parse_text_iff {s : Text} :
    parse (.text s) = .ok t ↔
      Named t (Text.trim s) ∨ Literal.Denotes .detected (Text.trim s).chars t.code := by
  have number : ofNumber (.text s) = .ok t ↔
      Literal.Denotes .detected (Text.trim s).chars t.code := by
    rw [← read_eq_code_iff, ofNumber_eq_ok_iff]
    exact readNumber_eq_ok_iff
  rw [← ofName_eq_some_iff]
  show (match ofName? s with
    | some t => .ok t
    | none => ofNumber (.text s)) = Except.ok t ↔ _
  cases name : ofName? s with
  | none => simp [number]
  | some other => simp [(ofName_eq_some_iff.mp name).not_denotes]

theorem parse_count_iff {n : ℤ} (count : v.count? = some n) :
    parse v = .ok t ↔ v.rational? = some (t.code : ℚ) := by
  obtain ⟨number, whole, value⟩ : parse v = ofNumber v ∧
      Member.wholeNumber .detected (numeral v) = .ok n ∧ v.rational? = some (n : ℚ) := by
    cases v <;> cases count <;> exact ⟨rfl, rfl, Double.rational_exact _⟩
  rw [number, ofNumber_eq_ok_iff, whole, value, Except.ok.injEq, Option.some.injEq]
  exact_mod_cast Iff.rfl

theorem parse_float_iff {x : Double} :
    parse (.float x) = .ok t ↔
      ∃ q, x.rational? = some q ∧ (t.code : ℚ) ≤ q ∧ q < t.code + 1 := by
  rw [← Double.truncate_eq_some_iff t.code_pos]
  show ofNumber (.float x) = .ok t ↔ _
  rw [ofNumber_eq_ok_iff]
  show Member.wholeNumber .detected (.float x) = .ok (t.code : ℤ) ↔ _
  rw [Member.wholeNumber]
  cases x.truncate? <;> simp

theorem parse_bytes_iff {bs : Bytes} :
    parse (.bytes bs) = .ok t ↔
      Literal.Signed (Literal.Readable .decimal)
        (Text.trimEnds Text.isNumeralBlank (ascii bs)) t.code := by
  rw [← Literal.readChars_eq_ok_iff]
  exact (ofNumber_eq_ok_iff (v := .bytes bs)).trans readNumber_eq_ok_iff

/-- **Tags taken.** A tag is taken from the values that stand for it and from those that are mistaken
for it. -/
theorem parse_eq_ok_iff : parse v = .ok t ↔ Stands t v ∨ Mistaken t v := by
  cases v with
  | text s =>
    rw [parse_text_iff]
    constructor
    · rintro (named | denotes)
      · exact Or.inl (.name named)
      · exact Or.inl (.literal denotes)
    · rintro (stands | mistaken)
      · cases stands with
        | number value => cases value
        | name named => exact Or.inl named
        | literal denotes => exact Or.inr denotes
      · cases mistaken
  | bytes bs =>
    rw [parse_bytes_iff]
    constructor
    · exact fun read => Or.inr (.bytes read)
    · rintro (stands | mistaken)
      · cases stands with
        | number value => cases value
      · cases mistaken with
        | bytes read => exact read
  | float x =>
    rw [parse_float_iff]
    constructor
    · rintro ⟨q, value, low, high⟩
      rcases low.eq_or_lt with same | beyond
      · exact Or.inl (.number (same ▸ value))
      · exact Or.inr (.fraction value beyond high)
    · rintro (stands | mistaken)
      · cases stands with
        | number value => exact ⟨_, value, le_rfl, lt_add_one _⟩
      · cases mistaken with
        | fraction value beyond high => exact ⟨_, value, beyond.le, high⟩
  | bool b | int n =>
    rw [parse_count_iff rfl]
    constructor
    · exact fun value => Or.inl (.number value)
    · rintro (stands | mistaken)
      · cases stands with
        | number value => exact value
      · cases mistaken
  | null | list | object =>
    constructor
    · nofun
    · rintro (stands | mistaken)
      · cases stands with
        | number value => cases value
      · cases mistaken

/-- What a value is told from which no tag is taken. -/
theorem parse_eq_error {e : Failure} (failed : parse v = .error e) :
    e = .unsupportedTag v ∨ e = .infiniteNumber ∧ ∃ negative, v = .float (.infinite negative) := by
  cases v with
  | text s =>
    refine ofNumber_eq_error ?_
    unfold parse at failed
    dsimp only at failed
    split at failed
    · cases failed
    · exact failed
  | null | bool | int | float | bytes | list | object => exact ofNumber_eq_error failed

/-- A value stands for one tag at most, and what is mistaken for a tag stands for none. -/
theorem Stands.unique {t' : Tag} (stands : Stands t v) (again : Stands t' v) : t = t' := by
  have read := parse_eq_ok_iff.mpr (Or.inl stands)
  rw [parse_eq_ok_iff.mpr (Or.inl again)] at read
  exact (Except.ok.inj read).symm

theorem Mistaken.not_stands (mistaken : Mistaken t v) (t' : Tag) : ¬ Stands t' v := by
  cases mistaken with
  | @fraction x q value beyond high =>
    intro stands
    obtain number : _ = some (t'.code : ℚ) := by
      cases stands with
      | number number => exact number
    have same : q = t'.code := Option.some.inj (value.symm.trans number)
    rw [same] at beyond high
    have low : t.code < t'.code := Nat.cast_lt.mp beyond
    have next : t'.code < t.code + 1 := by exact_mod_cast high
    omega
  | bytes _ =>
    intro stands
    cases stands with
    | number number => cases number

/-- An infinite number stands for no tag and is not mistaken for one. -/
theorem not_taken_infinite {negative : Bool} :
    ¬ (Stands t (.float (.infinite negative)) ∨ Mistaken t (.float (.infinite negative))) := by
  rw [← parse_eq_ok_iff]
  nofun

/-! ## Faithful readings -/

/-- A value is read as the tag that it stands for, and told to be unsupported if it stands for none. -/
structure Faithful (v : Value) : Prop where
  accepted : ∀ t, parse v = .ok t ↔ Stands t v
  refused : (∀ t, ¬ Stands t v) → parse v = .error (.unsupportedTag v)

theorem faithful_of_plain (known : ∀ t, ¬ Mistaken t v)
    (finite : ∀ negative, v ≠ .float (.infinite negative)) : Faithful v where
  accepted t := by rw [parse_eq_ok_iff, or_iff_left (known t)]
  refused none := by
    cases read : parse v with
    | ok t => exact absurd (parse_eq_ok_iff.mp read) (not_or.mpr ⟨none t, known t⟩)
    | error e =>
      rcases parse_eq_error read with rfl | ⟨_, negative, infinite⟩
      · rfl
      · exact absurd infinite (finite negative)

/-- **Tags read.** All values are read faithfully but those that are mistaken for a tag, for which
this tag is told, and the infinite numbers, for which the failure is another one. -/
theorem faithful_or_mistaken (v : Value) :
    (Faithful v ↔ (∀ t, ¬ Mistaken t v) ∧ ∀ negative, v ≠ .float (.infinite negative)) ∧
      (∀ t, Mistaken t v → parse v = .ok t ∧ ∀ t', ¬ Stands t' v) ∧
      ∀ negative, v = .float (.infinite negative) →
        parse v = .error .infiniteNumber ∧ ∀ t, ¬ Stands t v := by
  refine ⟨⟨?_, fun ⟨known, finite⟩ => faithful_of_plain known finite⟩, ?mistaken, ?infinite⟩
  · intro faithful
    constructor
    · intro t mistaken
      have read := parse_eq_ok_iff.mpr (Or.inr mistaken)
      exact mistaken.not_stands t ((faithful.accepted t).mp read)
    · rintro negative rfl
      have told := faithful.refused fun t stands => not_taken_infinite (Or.inl stands)
      cases told
  case mistaken =>
    exact fun t mistaken => ⟨parse_eq_ok_iff.mpr (Or.inr mistaken), mistaken.not_stands⟩
  case infinite =>
    rintro negative rfl
    exact ⟨rfl, fun t stands => not_taken_infinite (Or.inl stands)⟩

namespace Sample

/-- The number that is a half beyond the tag of ids. -/
def half : Value :=
  .float (.ofDecimal false 675 (-1))

/-- The figures of the tag of ids, as bytes. -/
def figures : Value :=
  .bytes [0x36, 0x37]

theorem mistaken_half : Mistaken .nft half := by
  have parts : Double.ofDecimal false 675 (-1) = .finite false 4749890231992320 (-46) := by
    decide +kernel
  have value : Double.worth false 4749890231992320 (-46) = 135 / 2 := by
    norm_num [Double.worth]
  refine .fraction (q := 135 / 2) ?_ ?_ ?_
  · rw [parts, ← value]
    rfl
  · norm_num [code]
  · norm_num [code]

theorem mistaken_figures : Mistaken .nft figures :=
  .bytes (Literal.readChars_eq_ok_iff.mp (by rfl))

end Sample

/-- A half more than the tag of ids, and its figures as bytes, are taken for it. -/
theorem faithful_or_mistaken_sample :
    (parse Sample.half = .ok .nft ∧ ∀ t, ¬ Stands t Sample.half) ∧
      (parse Sample.figures = .ok .nft ∧ ∀ t, ¬ Stands t Sample.figures) ∧
      parse (.float (.infinite true)) = .error .infiniteNumber ∧
      Faithful (.text "0x43") := by
  obtain ⟨_, half, _⟩ := faithful_or_mistaken Sample.half
  obtain ⟨_, figures, _⟩ := faithful_or_mistaken Sample.figures
  obtain ⟨_, _, infinite⟩ := faithful_or_mistaken (.float (.infinite true))
  refine ⟨half _ Sample.mistaken_half, figures _ Sample.mistaken_figures, (infinite _ rfl).1, ?_⟩
  exact (faithful_or_mistaken _).1.mpr ⟨nofun, nofun⟩

/-- Not all values are read faithfully. -/
theorem not_always_faithful : ¬ ∀ v, Faithful v := by
  intro always
  have taken : parse Sample.half = .ok .nft := parse_eq_ok_iff.mpr (Or.inr Sample.mistaken_half)
  exact Sample.mistaken_half.not_stands _ (((always _).accepted _).mp taken)

end Tag

end ProofGate
