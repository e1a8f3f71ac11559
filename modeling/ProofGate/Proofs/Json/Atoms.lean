import ProofGate.Json.Reader
import ProofGate.Json.Writer
import ProofGate.Proofs.Literal
import Mathlib.Data.List.TakeWhile

/-!
# Texts, numbers and words read back

A value is read from its characters whatever stands behind them, if only that does not go on with
it: a comma, a new line or the end. Here this is shown of plain texts, of integers and of the words
for truth values, which are the leaves of a document.
-/

namespace ProofGate

namespace Json

/-! ## Plain texts -/

/-- A printable character that stands for itself between quotes. -/
def isPlain (c : Char) : Bool :=
  0x20 ≤ c.toNat && c.toNat < 0x7F && c != '"' && c != '\\'

def PlainText (t : Text) : Prop :=
  ∃ cs, t = Text.ofChars cs ∧ ∀ c ∈ cs, isPlain c = true

/-! ## What stands behind a value and in front of it -/

/-- A text that does not go on with the value in front of it. -/
def Stops (rest : List Char) : Prop :=
  ∀ c ∈ rest.head?, c = ',' ∨ c = '\n'

/-- A text that begins with a value. -/
def Starts (cs : List Char) : Prop :=
  ∃ c ∈ cs.head?, isGap c = false ∧ c ≠ ']' ∧ c ≠ '\x7d'

/-- A character that a file keeps as one byte. -/
def isSafe (c : Char) : Bool :=
  c.toNat < 128 && c != '\r'

/-- Characters from which a value is read, whatever stands behind them. -/
structure Reads (v : Value) (cs : List Char) : Prop where
  starts : Starts cs
  safe : ∀ c ∈ cs, isSafe c = true
  reads : ∀ fuel pos rest, 2 * cs.length ≤ fuel → Stops rest →
    ∃ pos', value fuel ⟨pos, cs ++ rest⟩ = .ok (v, ⟨pos', rest⟩)

theorem stops_nil : Stops [] := nofun

theorem stops_comma (rest : List Char) : Stops (',' :: rest) := by
  rintro _ ⟨⟩
  exact Or.inl rfl

theorem stops_newline (rest : List Char) : Stops ('\n' :: rest) := by
  rintro _ ⟨⟩
  exact Or.inr rfl

/-- A gap is passed over up to what is none. -/
theorem skip_gap {gap : List Char} (blank : ∀ c ∈ gap, isGap c = true) {r : List Char}
    (behind : ∀ c ∈ r.head?, isGap c = false) (pos : ℕ) :
    ∃ pos', Cursor.skip ⟨pos, gap ++ r⟩ = ⟨pos', r⟩ := by
  have kept : r.dropWhile isGap = r := by
    cases r with
    | nil => rfl
    | cons c cs => exact List.dropWhile_cons_of_neg (by simp [behind c rfl])
  refine ⟨_, congrArg (Cursor.mk _) ?_⟩
  show (gap ++ r).dropWhile isGap = r
  rw [List.dropWhile_append_of_pos blank, kept]

theorem skip_none {r : List Char} (behind : ∀ c ∈ r.head?, isGap c = false) (pos : ℕ) :
    ∃ pos', Cursor.skip ⟨pos, r⟩ = ⟨pos', r⟩ := by
  have none : ∀ c ∈ ([] : List Char), isGap c = true := by simp
  exact skip_gap none behind pos

theorem Starts.head_append {cs : List Char} (starts : Starts cs) (rest : List Char) :
    ∀ c ∈ (cs ++ rest).head?, isGap c = false ∧ c ≠ ']' ∧ c ≠ '\x7d' := by
  obtain ⟨c, head, gap, bracket, brace⟩ := starts
  cases cs with
  | nil => cases head
  | cons d cs =>
    cases head
    rintro _ ⟨⟩
    exact ⟨gap, bracket, brace⟩

/-- The new line and the blanks in front of an item. -/
def gapAt (level : ℕ) : List Char :=
  '\n' :: List.replicate (2 * level) ' '

theorem isGap_gapAt (level : ℕ) : ∀ c ∈ gapAt level, isGap c = true := by
  rw [gapAt, List.forall_mem_cons]
  refine ⟨rfl, fun c hc => ?_⟩
  rw [List.eq_of_mem_replicate hc]
  rfl

theorem isSafe_gapAt (level : ℕ) : ∀ c ∈ gapAt level, isSafe c = true := by
  rw [gapAt, List.forall_mem_cons]
  refine ⟨rfl, fun c hc => ?_⟩
  rw [List.eq_of_mem_replicate hc]
  rfl

/-! ## Texts -/

def quoted (cs : List Char) : List Char :=
  '"' :: (cs ++ ['"'])

theorem isPlain_iff {c : Char} :
    isPlain c = true ↔ 0x20 ≤ c.toNat ∧ c.toNat < 0x7F ∧ c ≠ '"' ∧ c ≠ '\\' := by
  simp [isPlain, and_assoc]

theorem isPlain_of_hex {c : Char} (digit : Hex.isDigit c = true) : isPlain c = true := by
  obtain ⟨d, value⟩ := Option.isSome_iff_exists.mp digit
  obtain ⟨low, high⟩ := Hex.toNat_of_value value
  refine isPlain_iff.mpr ⟨by omega, by omega, ?_, ?_⟩ <;> rintro rfl <;> revert digit <;> decide

/-- Bytes in hexadecimal are a plain text. -/
theorem plainText_marked (bs : Bytes) : PlainText (Hex.marked bs) := by
  refine ⟨'0' :: 'x' :: Hex.digits bs, rfl, ?_⟩
  rw [List.forall_mem_cons, List.forall_mem_cons]
  exact ⟨rfl, rfl, fun c hc => isPlain_of_hex ((Hex.digits_of_pairs (Hex.pairs_digits bs)).1 c hc)⟩

theorem plainText_of_all {s : String} (plain : s.toList.all isPlain = true) :
    PlainText (Text.ofString s) :=
  ⟨s.toList, rfl, List.all_eq_true.mp plain⟩

theorem isSafe_of_isPlain {c : Char} (plain : isPlain c = true) : isSafe c = true := by
  obtain ⟨low, high, _⟩ := isPlain_iff.mp plain
  have printable : c ≠ '\r' := by
    rintro rfl
    exact absurd low (by decide)
  simp [isSafe, printable, Nat.lt_succ_of_lt high]

theorem isSafe_quoted {cs : List Char} (plain : ∀ c ∈ cs, isPlain c = true) :
    ∀ c ∈ quoted cs, isSafe c = true := by
  rw [quoted, List.forall_mem_cons, List.forall_mem_append, List.forall_mem_singleton]
  exact ⟨rfl, fun c hc => isSafe_of_isPlain (plain c hc), rfl⟩

theorem writtenChar_plain {c : Char} (plain : isPlain c = true) : writtenChar c = [c] := by
  obtain ⟨low, high, quote, escape⟩ := isPlain_iff.mp plain
  have printable (d : Char) (control : d.toNat < 0x20) : c ≠ d := by
    rintro rfl
    omega
  rw [writtenChar, if_neg (by simp [quote, escape]), if_neg (printable '\n' (by decide)),
    if_neg (printable '\r' (by decide)), if_neg (printable '\t' (by decide)),
    if_neg (printable '\x08' (by decide)), if_neg (printable '\x0c' (by decide)),
    if_pos ⟨low, high⟩]

theorem writtenText_plain {cs : List Char} (plain : ∀ c ∈ cs, isPlain c = true) :
    writtenText (Text.ofChars cs) = Text.ofChars (quoted cs) := by
  have inside : (Text.ofChars cs).flatMap writtenPoint = cs := by
    induction cs with
    | nil => rfl
    | cons c cs ih =>
      rw [List.forall_mem_cons] at plain
      show writtenChar c ++ (Text.ofChars cs).flatMap writtenPoint = c :: cs
      rw [writtenChar_plain plain.1, ih plain.2]
      rfl
  rw [writtenText, inside, quoted]

theorem textFrom_plain {cs : List Char} (plain : ∀ c ∈ cs, isPlain c = true) (opened pos : ℕ)
    (rest : List Char) (done : Text) :
    ∃ pos', textFrom opened pos (cs ++ '"' :: rest) done =
      .ok (done.reverse ++ Text.ofChars cs, ⟨pos', rest⟩) := by
  induction cs generalizing pos done with
  | nil =>
    rw [List.nil_append, textFrom, if_pos rfl]
    exact ⟨_, by rw [Text.ofChars, List.map_nil, List.append_nil]⟩
  | cons c cs ih =>
    rw [List.forall_mem_cons] at plain
    obtain ⟨low, _, quote, escape⟩ := isPlain_iff.mp plain.1
    have point : textPoint opened pos c (cs ++ '"' :: rest) = .ok (.char c, 0) := by
      unfold textPoint
      rw [if_neg escape, if_neg (by omega)]
    obtain ⟨pos', read⟩ := ih plain.2 (pos + 1 + 0) (.char c :: done)
    refine ⟨pos', ?_⟩
    rw [List.cons_append, textFrom, if_neg quote, point]
    dsimp only
    rw [List.drop_zero, read, List.reverse_cons, List.append_assoc]
    rfl

theorem value_quote (fuel pos : ℕ) (cs : List Char) :
    value (fuel + 1) ⟨pos, '"' :: cs⟩ =
      (textFrom pos (pos + 1) cs []).map fun r => (.text r.1, r.2) := by
  simp only [value]
  cases textFrom pos (pos + 1) cs [] <;> rfl

theorem reads_text {cs : List Char} (plain : ∀ c ∈ cs, isPlain c = true) :
    Reads (.text (Text.ofChars cs)) (quoted cs) where
  starts := ⟨'"', rfl, rfl, by decide, by decide⟩
  safe := isSafe_quoted plain
  reads := by
    intro fuel pos rest enough _
    obtain ⟨fuel, rfl⟩ : ∃ n, fuel = n + 1 := by
      rw [quoted, List.length_cons] at enough
      exact ⟨fuel - 1, by omega⟩
    obtain ⟨pos', read⟩ := textFrom_plain plain pos (pos + 1) rest []
    refine ⟨pos', ?_⟩
    rw [quoted, List.cons_append, List.append_assoc, List.singleton_append, value_quote, read]
    rfl

/-! ## Numbers and words -/

theorem value_atom {c : Char} (quote : c ≠ '"') (bracket : c ≠ '[') (brace : c ≠ '\x7b')
    (fuel pos : ℕ) (cs : List Char) : value (fuel + 1) ⟨pos, c :: cs⟩ = atom ⟨pos, c :: cs⟩ := by
  rw [value]
  split
  · next same => exact absurd (List.cons.inj same).1 quote
  · next same => exact absurd (List.cons.inj same).1 bracket
  · next same => exact absurd (List.cons.inj same).1 brace
  · rfl

/-- What stops a value is no part of a number. -/
theorem number_stops {rest : List Char} (stops : Stops rest) :
    (∀ c ∈ rest.head?, isDigit c = false) ∧ fractionDigits rest = [] ∧ exponent? rest = none := by
  cases rest with
  | nil => exact ⟨nofun, rfl, rfl⟩
  | cons c rest =>
    have either : c = ',' ∨ c = '\n' := stops c rfl
    obtain rfl | rfl := either
    · exact ⟨by rintro _ ⟨⟩; rfl, rfl, rfl⟩
    · exact ⟨by rintro _ ⟨⟩; rfl, rfl, rfl⟩

/-- A decimal digit by its character. -/
theorem isDigit_of_value {c : Char} {d : ℕ} (h : Literal.digitValue? c = some d) (small : d < 10) :
    isDigit c = true ∧ c.toNat - 48 = d := by
  have code := Literal.code_of_digitValue h
  have figure : '0' ≤ c ∧ c ≤ '9' := by
    show 48 ≤ c.toNat ∧ c.toNat ≤ 57
    omega
  exact ⟨by simp [isDigit, figure], by omega⟩

theorem decimal_of_counts {cs : List Char} {ds : List ℕ} (counts : Literal.Counts 10 cs ds) :
    (∀ c ∈ cs, isDigit c = true) ∧ cs.map (fun c => c.toNat - 48) = ds := by
  induction counts with
  | nil => exact ⟨by simp, rfl⟩
  | cons first _ ih =>
    obtain ⟨digit, value⟩ := isDigit_of_value first.1 first.2
    rw [List.forall_mem_cons, List.map_cons, value, ih.2]
    exact ⟨⟨digit, ih.1⟩, rfl⟩

/-- The whole part of a numeral that stops is all of it. -/
theorem wholeDigits_numeral (n : ℕ) {rest : List Char} (stops : Stops rest) :
    wholeDigits (Numeral.digits 10 n ++ rest) = Numeral.digits 10 n ∧
      natOf (Numeral.digits 10 n) = n := by
  obtain ⟨ds, counts, number⟩ := Numeral.counts_digits (b := 10) (by decide) (by decide) n
  obtain ⟨digits, values⟩ := decimal_of_counts counts
  refine ⟨?_, by rw [natOf, values, number]⟩
  by_cases positive : 0 < n
  · have head := Numeral.head_digits (b := 10) (by decide) (by decide) positive
    have none := Numeral.digits_ne_nil 10 n
    generalize Numeral.digits 10 n = cs at digits head none
    have taken : (cs ++ rest).takeWhile isDigit = cs := by
      rw [List.takeWhile_append_of_pos digits]
      cases rest with
      | nil => rw [List.takeWhile_nil, List.append_nil]
      | cons c rest =>
        have behind : isDigit c = false := (number_stops stops).1 c rfl
        rw [List.takeWhile_cons_of_neg (by simp [behind]), List.append_nil]
    unfold wholeDigits
    split
    · next zero =>
      cases cs with
      | nil => exact absurd rfl none
      | cons c cs =>
        rw [List.cons_append] at zero
        rw [(List.cons.inj zero).1] at head
        exact absurd rfl head
    · exact taken
  · obtain rfl : n = 0 := by omega
    rw [Numeral.digits_of_lt (by decide)]
    rfl

/-- The characters of an integer. -/
def numeral : Int → List Char
  | .ofNat n => Numeral.digits 10 n
  | .negSucc n => '-' :: Numeral.digits 10 (n + 1)

theorem ofInt_eq_numeral (n : Int) : Text.ofString (Numeral.ofInt n) = Text.ofChars (numeral n) := by
  cases n <;> simp [Text.ofString, Numeral.ofInt, Numeral.ofNat, numeral]

theorem digits_cons (n : ℕ) : ∃ c cs, Numeral.digits 10 n = c :: cs ∧ isDigit c = true := by
  obtain ⟨ds, counts, _⟩ := Numeral.counts_digits (b := 10) (by decide) (by decide) n
  have digits := (decimal_of_counts counts).1
  cases written : Numeral.digits 10 n with
  | nil => exact absurd written (Numeral.digits_ne_nil 10 n)
  | cons c cs =>
    rw [written, List.forall_mem_cons] at digits
    exact ⟨c, cs, rfl, digits.1⟩

theorem isSafe_of_isDigit {c : Char} (digit : isDigit c = true) : isSafe c = true := by
  have high : c.toNat ≤ 57 := of_decide_eq_true (Bool.and_eq_true_iff.mp digit).2
  have printable : c ≠ '\r' := by
    rintro rfl
    exact absurd digit (by decide)
  simp [isSafe, printable, Nat.lt_of_le_of_lt high]

theorem isSafe_numeral (n : Int) : ∀ c ∈ numeral n, isSafe c = true := by
  have digits (n : ℕ) : ∀ c ∈ Numeral.digits 10 n, isSafe c = true := by
    obtain ⟨ds, counts, _⟩ := Numeral.counts_digits (b := 10) (by decide) (by decide) n
    exact fun c hc => isSafe_of_isDigit ((decimal_of_counts counts).1 c hc)
  cases n with
  | ofNat n => exact digits n
  | negSucc n =>
    rw [numeral, List.forall_mem_cons]
    exact ⟨rfl, digits (n + 1)⟩

theorem ne_of_isDigit {c d : Char} (digit : isDigit c = true) (other : isDigit d = false) :
    c ≠ d := by
  rintro rfl
  rw [other] at digit
  cases digit

theorem advance_append (cs rest : List Char) (pos : ℕ) :
    Cursor.advance ⟨pos, cs ++ rest⟩ cs.length = ⟨pos + cs.length, rest⟩ := by
  rw [Cursor.advance, List.drop_left]

theorem number_numeral (n : Int) (pos : ℕ) {rest : List Char} (stops : Stops rest) :
    number? ⟨pos, numeral n ++ rest⟩ = some (.int n, ⟨pos + (numeral n).length, rest⟩) := by
  obtain ⟨_, fraction, exponent⟩ := number_stops stops
  rw [← advance_append]
  cases n with
  | ofNat n =>
    obtain ⟨whole, number⟩ := wholeDigits_numeral n stops
    obtain ⟨c, cs, written, digit⟩ := digits_cons n
    have some : (Numeral.digits 10 n).isEmpty = false := by rw [written, List.isEmpty_cons]
    unfold number?
    split
    next negative body sign =>
    split at sign
    · next minus =>
      rw [numeral, written] at minus
      exact absurd (List.cons.inj minus).1 (ne_of_isDigit digit rfl)
    · cases sign
      simp only [numeral, whole, List.drop_left, fraction, number, some, List.isEmpty_nil, if_true,
        List.drop_zero, exponent, Option.isNone_none, Bool.and_self, Bool.false_eq_true, if_false,
        Option.map_none, Option.getD_none, Nat.zero_add, Nat.add_zero]
  | negSucc n =>
    obtain ⟨whole, number⟩ := wholeDigits_numeral (n + 1) stops
    obtain ⟨c, cs, written, _⟩ := digits_cons (n + 1)
    have some : (Numeral.digits 10 (n + 1)).isEmpty = false := by rw [written, List.isEmpty_cons]
    simp only [numeral, number?, List.cons_append, whole, List.drop_left, fraction, number, some,
      List.isEmpty_nil, if_true, List.drop_zero, exponent, Option.isNone_none, Bool.and_self,
      Bool.false_eq_true, if_false, Option.map_none, Option.getD_none, Nat.zero_add,
      List.length_cons, Nat.add_comm]
    rfl

/-- No word begins like a number. -/
theorem not_word {c : Char} (digit : isDigit c = true) (cs : List Char) :
    (words.find? fun w => w.1.isPrefixOf (c :: cs)) = none ∧
      (words.find? fun w => w.1.isPrefixOf ('-' :: c :: cs)) = none := by
  have other {d : Char} (h : isDigit d = false) : (d == c) = false :=
    beq_eq_false_iff_ne.mpr (ne_of_isDigit digit h).symm
  constructor
  · simp [words, List.find?, List.isPrefixOf, other (d := 'n') rfl, other (d := 't') rfl,
      other (d := 'f') rfl, other (d := 'N') rfl, other (d := 'I') rfl, other (d := '-') rfl]
  · simp [words, List.find?, List.isPrefixOf, other (d := 'I') rfl]

theorem atom_numeral {n : Int}
    (few : (Numeral.digits 10 n.natAbs).length ≤ Literal.maxDigits) (pos : ℕ) {rest : List Char}
    (stops : Stops rest) :
    atom ⟨pos, numeral n ++ rest⟩ = .ok (.int n, ⟨pos + (numeral n).length, rest⟩) := by
  obtain ⟨c, cs, written, digit⟩ := digits_cons n.natAbs
  have noMinus : (Numeral.digits 10 n.natAbs ++ rest).dropWhile (· == '-') =
      Numeral.digits 10 n.natAbs ++ rest := by
    rw [written, List.cons_append]
    exact List.dropWhile_cons_of_neg (by simp [ne_of_isDigit digit (d := '-') rfl])
  have word : (words.find? fun w => w.1.isPrefixOf (numeral n ++ rest)) = none := by
    cases n with
    | ofNat n =>
      have same : numeral (.ofNat n) = c :: cs := written
      rw [same]
      exact (not_word digit (cs ++ rest)).1
    | negSucc n =>
      have same : numeral (.negSucc n) = '-' :: c :: cs := congrArg (List.cons '-') written
      rw [same]
      exact (not_word digit (cs ++ rest)).2
  have digits : (numeral n ++ rest).dropWhile (· == '-') = Numeral.digits 10 n.natAbs ++ rest := by
    cases n with
    | ofNat n => exact noMinus
    | negSucc n => exact noMinus
  rw [atom, word, number_numeral n pos stops]
  dsimp only
  rw [digits, (wholeDigits_numeral _ stops).1, if_neg (Nat.not_lt.mpr few)]

theorem reads_int {n : Int} (few : (Numeral.digits 10 n.natAbs).length ≤ Literal.maxDigits) :
    Reads (.int n) (numeral n) := by
  obtain ⟨c, cs, written, first⟩ : ∃ c cs, numeral n = c :: cs ∧
      (isDigit c = true ∨ c = '-') := by
    cases n with
    | ofNat n =>
      obtain ⟨c, cs, written, digit⟩ := digits_cons n
      exact ⟨c, cs, written, Or.inl digit⟩
    | negSucc n => exact ⟨'-', _, rfl, Or.inr rfl⟩
  have apart {d : Char} (h : isDigit d = false) (minus : '-' ≠ d) : c ≠ d := by
    obtain digit | rfl := first
    · exact ne_of_isDigit digit h
    · exact minus
  constructor
  case starts =>
    refine ⟨c, by rw [written]; rfl, ?_, apart rfl (by decide), apart rfl (by decide)⟩
    simp [isGap, apart (d := ' ') rfl (by decide), apart (d := '\t') rfl (by decide),
      apart (d := '\n') rfl (by decide), apart (d := '\r') rfl (by decide)]
  case safe => exact isSafe_numeral n
  case reads =>
    intro fuel pos rest enough stops
    obtain ⟨fuel, rfl⟩ : ∃ n, fuel = n + 1 := by
      rw [written, List.length_cons] at enough
      exact ⟨fuel - 1, by omega⟩
    refine ⟨pos + (numeral n).length, ?_⟩
    have read := atom_numeral few pos stops
    rw [written, List.cons_append] at read ⊢
    rw [value_atom (apart rfl (by decide)) (apart rfl (by decide)) (apart rfl (by decide)), read]

/-- A word is read as what it stands for. -/
theorem reads_word {word : List Char} {v : Value} (named : (word, v) ∈ words.take 3) :
    Reads v word := by
  simp only [words, List.take_succ_cons, List.take_zero, List.mem_cons, List.not_mem_nil,
    or_false] at named
  rcases named with h | h | h <;> cases h
  all_goals
    refine ⟨⟨_, rfl, by decide, by decide, by decide⟩, List.all_eq_true.mp rfl,
      fun fuel pos rest enough _ => ?_⟩
    obtain ⟨fuel, rfl⟩ : ∃ n, fuel = n + 1 := ⟨fuel - 1, by
      have : 0 < fuel := Nat.lt_of_lt_of_le (by decide) enough
      omega⟩
    exact ⟨_, (value_atom (by decide) (by decide) (by decide) fuel pos _).trans rfl⟩

end Json

end ProofGate
