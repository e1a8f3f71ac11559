import ProofGate.Bundle.Parse
import ProofGate.Proofs.Bytes
import ProofGate.Proofs.Hex
import ProofGate.Proofs.Run
import ProofGate.Proofs.Value
import Mathlib.Data.List.Forall2

/-!
# Words in their written forms

A word may be handed over as its bytes, as hexadecimal text or as the number that its bytes count,
and the last one of a row as fewer bytes. A value is read as the word that it stands for and as no
other, so however each of them is written, words are read as they are.
-/

namespace ProofGate

namespace Word

/-! ## Values that stand for words -/

/-- Bytes fill a word: all of it, or a part of the last one, behind which there are zeros. -/
inductive Fills (isLast : Bool) (bs : Bytes) : Bytes → Prop where
  | whole : bs.length = 32 → Fills isLast bs bs
  | short : isLast = true → 1 ≤ bs.length → bs.length ≤ 31 →
      Fills isLast bs (bs ++ Bytes.zeros (32 - bs.length))

/-- A value stands for a word, the last one or another: a number below the bound that its bytes
count, or bytes or a hexadecimal text that fill it. -/
inductive Denoted (isLast : Bool) (w : Bytes) : Value → Prop where
  | bool {b : Bool} : w.length = 32 → w.natBE = (if b then 1 else 0) →
      Denoted isLast w (.bool b)
  | number {n : ℕ} : n < 2 ^ 256 → w.length = 32 → w.natBE = n → Denoted isLast w (.int n)
  | bytes {bs : Bytes} : Fills isLast bs w → Denoted isLast w (.bytes bs)
  | text {t : Text} {bs : Bytes} : Hex.Denotes bs t → Fills isLast bs w →
      Denoted isLast w (.text t)

variable {index : ℕ} {isLast : Bool} {bs w : Bytes} {v : Value}

theorem Fills.length_eq (fills : Fills isLast bs w) : w.length = 32 := by
  cases fills with
  | whole size => exact size
  | short _ _ few =>
    rw [List.length_append, Bytes.length_zeros]
    omega

/-- At the end of a row any bytes up to a whole word fill one. -/
theorem Fills.padTo (some : bs ≠ []) (short : bs.length ≤ 32) : Fills true bs (bs.padTo 32) := by
  obtain part | whole := Nat.lt_or_eq_of_le short
  · exact .short rfl (List.length_pos_iff.mpr some) (Nat.le_of_lt_succ part)
  · rw [Bytes.padTo_of_length whole]
    exact .whole whole

theorem Denoted.length_eq (denoted : Denoted isLast w v) : w.length = 32 := by
  cases denoted with
  | bool size | number _ size => exact size
  | bytes fills | text _ fills => exact fills.length_eq

theorem ofBytes_eq_ok_iff : ofBytes index isLast bs = .ok w ↔ Fills isLast bs w := by
  constructor
  · intro read
    unfold ofBytes at read
    split at read
    · next size =>
      cases read
      exact .whole size
    · split at read
      · next short =>
        obtain ⟨last, some, few⟩ := short
        cases read
        exact .short last (List.length_pos_iff.mpr some) (Nat.le_of_lt_succ few)
      · cases read
  · intro fills
    cases fills with
    | whole size => exact if_pos size
    | short last some few =>
      have part : bs.length ≠ length := Nat.ne_of_lt (Nat.lt_succ_of_le few)
      rw [ofBytes, if_neg part,
        if_pos ⟨last, List.length_pos_iff.mp some, Nat.lt_succ_of_le few⟩]
      rfl

theorem ofInt_eq_ok_iff {n : ℤ} : ofInt index n = .ok w ↔
    ∃ k : ℕ, n = k ∧ k < 2 ^ 256 ∧ w.length = 32 ∧ w.natBE = k := by
  have bound : (twoTo 256 : ℕ) = 256 ^ 32 := rfl
  constructor
  · intro read
    unfold ofInt at read
    split at read
    · next inside =>
      cases read
      obtain ⟨k, rfl⟩ := Int.eq_ofNat_of_zero_le inside.1
      have small : k < 256 ^ 32 := Int.ofNat_lt.mp inside.2
      refine ⟨k, rfl, small, Bytes.length_ofNatBE .., ?_⟩
      rw [Int.toNat_natCast, length, Bytes.natBE_ofNatBE, Nat.mod_eq_of_lt small]
    · cases read
  · rintro ⟨k, rfl, small, size, rfl⟩
    have whole : Bytes.ofNatBE 32 w.natBE = w := by
      rw [← size, Bytes.ofNatBE_natBE]
    rw [ofInt, if_pos ⟨Int.natCast_nonneg _, Int.ofNat_lt.mpr small⟩]
    exact congrArg Except.ok whole

theorem looseBytes_text_iff {t : Text} :
    looseBytes (.text t) = .ok bs ↔ Hex.Denotes bs t := by
  rw [← Hex.read_eq_ok_iff]
  simp only [looseBytes]
  constructor
  · intro loose
    split at loose
    · next read =>
      cases loose
      exact read
    · cases loose
  · intro read
    rw [read]

/-- **Words.** A value is read as the word that it stands for. -/
theorem ofValue_eq_ok_iff : ofValue index isLast v = .ok w ↔ Denoted isLast w v := by
  constructor
  · intro read
    cases v with
    | bool b =>
      obtain ⟨k, same, _, size, count⟩ := ofInt_eq_ok_iff.mp read
      refine .bool size (count.trans ?_)
      cases b <;> exact Int.ofNat_inj.mp same.symm
    | int n =>
      obtain ⟨k, rfl, small, size, count⟩ := ofInt_eq_ok_iff.mp read
      exact .number small size count
    | bytes bs => exact .bytes (ofBytes_eq_ok_iff.mp read)
    | text t =>
      simp only [ofValue] at read
      split at read
      · next loose => exact .text (looseBytes_text_iff.mp loose) (ofBytes_eq_ok_iff.mp read)
      · cases read
    | null | float x | list vs | object ms => cases read
  · intro denoted
    cases denoted with
    | @bool b size count =>
      refine ofInt_eq_ok_iff.mpr ⟨if b then 1 else 0, ?_, ?_, size, count⟩
      · cases b <;> rfl
      · cases b <;> decide
    | number small size count => exact ofInt_eq_ok_iff.mpr ⟨_, rfl, small, size, count⟩
    | bytes fills => exact ofBytes_eq_ok_iff.mpr fills
    | text denotes fills =>
      simp only [ofValue, looseBytes_text_iff.mpr denotes]
      exact ofBytes_eq_ok_iff.mpr fills

/-- **Rows of words.** Values are read as a row of as many words, each of which stands for the word
at its place. -/
theorem ofValues_eq_ok_iff {endsList : Bool} {vs : List Value} {ws : List Bytes} :
    ofValues endsList index vs = .ok ws ↔ ws.length = vs.length ∧
      ∀ i v w, vs[i]? = some v → ws[i]? = some w →
        Denoted (endsList && i + 1 == vs.length) w v := by
  induction vs generalizing index ws with
  | nil =>
    constructor
    · rintro ⟨⟩
      exact ⟨rfl, fun i v w there => by cases there⟩
    · rintro ⟨none, _⟩
      rw [List.length_eq_zero_iff.mp none]
      rfl
  | cons v vs ih =>
    have last : (endsList && vs.isEmpty) = (endsList && 0 + 1 == (v :: vs).length) := by
      cases vs <;> rfl
    have shift (i : ℕ) : (i + 1 + 1 == (v :: vs).length) = (i + 1 == vs.length) := by
      rw [Bool.eq_iff_iff, beq_iff_eq, beq_iff_eq, List.length_cons, Nat.succ_inj]
    rw [ofValues]
    constructor
    · intro read
      obtain ⟨w, first, read⟩ := bind_eq_ok.mp read
      obtain ⟨ws', rest, read⟩ := bind_eq_ok.mp read
      cases read
      obtain ⟨size, each⟩ := ih.mp rest
      refine ⟨congrArg (· + 1) size, fun i v' w' here there => ?_⟩
      cases i with
      | zero =>
        cases here
        cases there
        rw [← last]
        exact ofValue_eq_ok_iff.mp first
      | succ i =>
        rw [shift]
        exact each i v' w' here there
    · rintro ⟨size, each⟩
      cases ws with
      | nil => cases size
      | cons w ws =>
        have first : ofValue index (endsList && vs.isEmpty) v = .ok w := by
          rw [last]
          exact ofValue_eq_ok_iff.mpr (each 0 v w rfl rfl)
        have rest : ofValues endsList (index + 1) vs = .ok ws := by
          refine ih.mpr ⟨Nat.succ_inj.mp size, fun i v' w' here there => ?_⟩
          rw [← shift]
          exact each (i + 1) v' w' here there
        rw [first, ok_bind, rest]
        rfl

/-! ## Written forms -/

/-- The forms in which a word is written. -/
inductive Written (w : Bytes) : Value → Prop where
  | bytes : Written w (.bytes w)
  | text {t : Text} : Hex.Spells w t → Written w (.text t)
  | number : Written w (.int w.natBE)

/-- A number below the bound is a form of the word that it fills. -/
theorem Written.of_number {n : ℕ} (small : n < 2 ^ 256) :
    Written (Bytes.ofNatBE 32 n) (.int n) := by
  have inside : n < 256 ^ 32 := small
  have counted := Written.number (w := Bytes.ofNatBE 32 n)
  rwa [Bytes.natBE_ofNatBE, Nat.mod_eq_of_lt inside] at counted

theorem looseBytes_of_spells {bs : Bytes} {t : Text} (h : Hex.Spells bs t) :
    looseBytes (.text t) = .ok bs :=
  looseBytes_text_iff.mpr h.denotes

theorem Written.denoted {w : Bytes} {v : Value} (size : w.length = 32) (written : Written w v)
    (isLast : Bool) : Denoted isLast w v := by
  have small : w.natBE < 256 ^ 32 := size ▸ Bytes.natBE_lt w
  cases written with
  | bytes => exact .bytes (.whole size)
  | text spells => exact .text spells.denotes (.whole size)
  | number => exact .number small size rfl

/-- **Forms of a word.** A word is read from any of its forms, wherever it stands. -/
theorem ofValue_written {w : Bytes} {v : Value} (size : w.length = 32) (written : Written w v)
    (index : ℕ) (isLast : Bool) : ofValue index isLast v = .ok w :=
  ofValue_eq_ok_iff.mpr (written.denoted size isLast)

theorem ofValues_written {ws : List Bytes} {vs : List Value} (widths : ∀ w ∈ ws, w.length = 32)
    (written : List.Forall₂ Written ws vs) (endsList : Bool) (index : ℕ) :
    ofValues endsList index vs = .ok ws := by
  induction written generalizing index with
  | nil => rfl
  | cons first _ ih =>
    rw [List.forall_mem_cons] at widths
    rw [ofValues, ofValue_written widths.1 first, ok_bind, ih widths.2, ok_bind]
    rfl

theorem written_bytes (ws : List Bytes) : List.Forall₂ Written ws (ws.map Value.bytes) := by
  rw [List.forall₂_map_right_iff, List.forall₂_same]
  exact fun _ _ => .bytes

end Word

namespace Bundle

theorem check_words (b : Bundle) : check b.words = .ok b := by
  rw [check, dif_pos b.count, dif_pos b.widths]

/-- Nothing but the words of a bundle is taken for that bundle. -/
theorem check_eq_ok_iff {ws : List Bytes} {b : Bundle} : check ws = .ok b ↔ b.words = ws := by
  constructor
  · intro checked
    unfold check at checked
    split at checked
    · split at checked
      · cases checked
        rfl
      · cases checked
    · cases checked
  · rintro rfl
    exact check_words b

theorem check_of_miscount {ws : List Bytes} (miscount : ws.length ≠ 23) :
    check ws = .error (.bundleSize 23 ws.length) :=
  dif_neg miscount

/-- A bundle is read from its words in whatever forms. -/
theorem ofWordList_written (b : Bundle) {vs : List Value}
    (written : List.Forall₂ Word.Written b.words vs) : ofWordList vs = .ok b := by
  rw [ofWordList, Word.ofValues_written b.widths written, ok_bind, check_words]

end Bundle

end ProofGate
