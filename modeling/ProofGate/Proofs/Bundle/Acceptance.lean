import ProofGate.Proofs.Bundle.Buffer
import ProofGate.Proofs.Bundle.Malformed
import Mathlib.Data.List.OfFn

/-!
# What makes a bundle

Values make a bundle exactly if there are 23 of them, each of which stands for a word, and a blob
exactly if it ends within the last of 23 words. The bundle holds these words, and the bytes of the
blob with zeros behind them. All other values and blobs are told to be malformed.
-/

namespace ProofGate.Bundle

/-! ## Lists of words -/

/-- There are 23 values, and each stands for a word; only for the last one it may be short. -/
structure Grammatical (vs : List Value) : Prop where
  count : vs.length = 23
  words : ∀ i v, vs[i]? = some v → ∃ w, Word.Denoted (i == 22) w v

/-- A bundle is read from exactly the values that stand for its words. -/
theorem ofWordList_eq_ok_iff {vs : List Value} {b : Bundle} :
    ofWordList vs = .ok b ↔ vs.length = 23 ∧
      ∀ i v w, vs[i]? = some v → b.words[i]? = some w → Word.Denoted (i == 22) w v := by
  have last (i : ℕ) : (true && i + 1 == 23) = (i == 22) := by
    rw [Bool.true_and, Bool.eq_iff_iff, beq_iff_eq, beq_iff_eq, Nat.succ_inj]
  simp only [ofWordList, bind_eq_ok, check_eq_ok_iff, exists_eq_right',
    Word.ofValues_eq_ok_iff, b.count]
  constructor
  · rintro ⟨count, each⟩
    rw [← count] at each
    exact ⟨count.symm, fun i v w here there => last i ▸ each i v w here there⟩
  · rintro ⟨count, each⟩
    rw [count]
    exact ⟨rfl, fun i v w here there => (last i).symm ▸ each i v w here there⟩

/-- Words can be chosen one by one, since what a value stands for depends on its place alone. -/
theorem Grammatical.exists_bundle {vs : List Value} (h : Grammatical vs) :
    ∃ b, ofWordList vs = .ok b := by
  have each (i : Fin vs.length) : ∃ w, Word.Denoted (i.1 == 22) w vs[i] :=
    h.words i vs[i] (List.getElem?_eq_getElem i.2)
  choose word denoted using each
  have count : (List.ofFn word).length = 23 := by
    rw [List.length_ofFn, h.count]
  have widths : ∀ w ∈ List.ofFn word, w.length = 32 := by
    rw [List.forall_mem_ofFn_iff]
    exact fun i => (denoted i).length_eq
  refine ⟨⟨List.ofFn word, count, widths⟩, ofWordList_eq_ok_iff.mpr ⟨h.count, ?_⟩⟩
  intro i v w here there
  obtain ⟨inside, rfl⟩ := List.getElem?_eq_some_iff.mp here
  obtain ⟨_, rfl⟩ := List.getElem?_eq_some_iff.mp there
  rw [List.getElem_ofFn]
  exact denoted ⟨i, inside⟩

theorem ofWordList_isOk_iff {vs : List Value} : (∃ b, ofWordList vs = .ok b) ↔ Grammatical vs := by
  constructor
  · rintro ⟨b, read⟩
    obtain ⟨count, each⟩ := ofWordList_eq_ok_iff.mp read
    refine ⟨count, fun i v here => ?_⟩
    have inside : i < b.words.length := by
      rw [b.count, ← count]
      exact (List.getElem?_eq_some_iff.mp here).1
    exact ⟨b.words[i], each i v _ here (List.getElem?_eq_getElem inside)⟩
  · exact Grammatical.exists_bundle

/-- **Lists of words.** A list makes a bundle exactly if it has the grammar of one, its words are
those that the values stand for, and any other list is told to be malformed. -/
theorem ofWords_grammatical (vs : List Value) :
    ((∃ b, ofWords (.list vs) = .ok b) ↔ Grammatical vs) ∧
    (∀ b, ofWords (.list vs) = .ok b ↔ vs.length = 23 ∧
      ∀ i v w, vs[i]? = some v → b.words[i]? = some w → Word.Denoted (i == 22) w v) ∧
    (¬ Grammatical vs → ∃ e, ofWords (.list vs) = .error e ∧ e.kind = .malformedBundle) := by
  have listed : ofWords (.list vs) = ofWordList vs := rfl
  rw [listed]
  refine ⟨ofWordList_isOk_iff, fun b => ofWordList_eq_ok_iff, fun other => ?_⟩
  cases read : ofWordList vs with
  | ok b => exact absurd (ofWordList_isOk_iff.mp ⟨b, read⟩) other
  | error e => exact ⟨e, rfl, kind_of_ofWordList read⟩

/-- Truth values, and one digit for the last word. -/
def shortened : List Value :=
  List.replicate 22 (.bool true) ++ [.text (Text.ofChars ['0', 'x', 'F'])]

theorem grammatical_shortened : Grammatical shortened where
  count := rfl
  words := by
    intro i v here
    obtain front | behind := Nat.lt_or_ge i 22
    · have inside : i < (List.replicate 22 (Value.bool true)).length := front
      rw [shortened, List.getElem?_append_left inside, List.getElem?_replicate_of_lt front] at here
      cases here
      exact ⟨Bytes.ofNatBE 32 1, .bool rfl rfl⟩
    · have inside : i < 23 := (List.getElem?_eq_some_iff.mp here).1
      obtain rfl : i = 22 := by omega
      cases here
      have counts : Hex.Counts ['F'] [15] :=
        { plain := List.forall_mem_singleton.mpr rfl
          length := rfl
          value := rfl }
      exact ⟨15 :: Bytes.zeros 31, .text (.small counts) (.short rfl (by decide) (by decide))⟩

/-- One digit is enough for the last word; a list of nothing but one value is no bundle. -/
theorem ofWords_grammatical_sample :
    (∃ b, ofWords (.list shortened) = .ok b) ∧
    ∃ e, ofWords (.list [.null]) = .error e ∧ e.kind = .malformedBundle := by
  obtain ⟨accepted, _⟩ := ofWords_grammatical shortened
  obtain ⟨_, _, malformed⟩ := ofWords_grammatical [.null]
  exact ⟨accepted.mpr grammatical_shortened, malformed fun single => by cases single.count⟩

/-! ## Blobs -/

/-- There are always enough bytes for a statement behind the proof and its inputs. -/
theorem joinWords_eq_ok (b : Bundle) :
    Statement.joinWords (b.words.drop 11) 368 = .ok b.statement := by
  have size : (b.words.drop 11).flatten.length = 384 := by
    rw [Bytes.length_flatten fun w hw => b.widths w (List.mem_of_mem_drop hw), List.length_drop,
      b.count]
  refine Statement.joinWords_eq_ok_iff.mpr ⟨?_, rfl⟩
  rw [size]
  decide

/-- **Blobs.** A blob makes a bundle exactly if it ends within the last of 23 words. The words are
its bytes and zeros, of which the first 720 bytes are written again; so 720 bytes come back as they
are, and fewer with zeros behind them. What ends elsewhere is told to be malformed by the number of
words that it makes. -/
theorem ofBytes_exact (d : Bytes) :
    ((∃ b, ofBytes d = .ok b) ↔ 705 ≤ d.length ∧ d.length ≤ 736) ∧
    (¬ (705 ≤ d.length ∧ d.length ≤ 736) → ∃ e, ofBytes d = .error e ∧
      e = .bundleSize 23 ((d.length + 31) / 32) ∧ e.kind = .malformedBundle) ∧
    (∀ b, ofBytes d = .ok b → b.words.flatten = d ++ Bytes.zeros (736 - d.length) ∧
      b.toBytes = (d ++ Bytes.zeros (736 - d.length)).take 720 ∧
      Statement.joinWords (b.words.drop 11) 368 = .ok b.statement) ∧
    (d.length = 720 → ∃ b, ofBytes d = .ok b ∧ b.toBytes = d) ∧
    (705 ≤ d.length → d.length ≤ 719 → ∃ b, ofBytes d = .ok b ∧
      ofBytes (d ++ Bytes.zeros (720 - d.length)) = .ok b ∧
      b.toBytes = d ++ Bytes.zeros (720 - d.length)) := by
  refine ⟨?length, ?outside, ?inside, ?exact, ?short⟩
  case length =>
    constructor
    · rintro ⟨b, read⟩
      obtain ⟨low, high, _⟩ := ofBytes_eq_ok_iff.mp read
      exact ⟨low, high⟩
    · rintro ⟨low, high⟩
      obtain ⟨b, read, _⟩ := ofBytes_eq_ok low high
      exact ⟨b, read⟩
  case outside =>
    intro outside
    exact ⟨_, ofBytes_eq_error outside, rfl, rfl⟩
  case inside =>
    intro b read
    obtain ⟨_, _, buffer⟩ := ofBytes_eq_ok_iff.mp read
    exact ⟨buffer, by rw [toBytes_eq_take, buffer], joinWords_eq_ok b⟩
  case exact =>
    intro size
    obtain ⟨b, read, buffer⟩ := ofBytes_eq_ok (by omega : 704 < d.length) (by omega)
    refine ⟨b, read, ?_⟩
    rw [toBytes_eq_take, buffer, List.take_left' size]
  case short =>
    intro low high
    obtain ⟨b, read, buffer⟩ := ofBytes_eq_ok low (by omega)
    have filled : (d ++ Bytes.zeros (720 - d.length)).length = 720 := by
      rw [List.length_append, Bytes.length_zeros]
      omega
    have behind : 736 - d.length = 720 - d.length + (736 - 720) := by omega
    rw [behind, Bytes.zeros_add, ← List.append_assoc] at buffer
    refine ⟨b, read, ofBytes_eq_ok_iff.mpr ?_, ?_⟩
    · rw [filled]
      exact ⟨by decide, by decide, buffer⟩
    · rw [toBytes_eq_take, buffer, List.take_left' filled]

/-- One byte more or less decides. -/
theorem ofBytes_exact_sample :
    (∃ b, ofBytes (Bytes.zeros 705) = .ok b ∧
      b.toBytes = Bytes.zeros 705 ++ Bytes.zeros (720 - 705)) ∧
    ∃ e, ofBytes (Bytes.zeros 704) = .error e ∧ e = .bundleSize 23 22 := by
  obtain ⟨_, _, _, _, short⟩ := ofBytes_exact (Bytes.zeros 705)
  obtain ⟨_, outside, _⟩ := ofBytes_exact (Bytes.zeros 704)
  rw [Bytes.length_zeros] at short outside
  obtain ⟨b, read, _, bytes⟩ := short (by decide) (by decide)
  obtain ⟨e, failed, size, _⟩ := outside (by decide)
  exact ⟨⟨b, read, bytes⟩, e, failed, size⟩

end ProofGate.Bundle
