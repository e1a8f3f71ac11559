import ProofGate.Proofs.Calldata.Acceptance
import ProofGate.Proofs.Digits
import ProofGate.Proofs.Gate.Answers
import ProofGate.Proofs.Release.Decoded

/-!
# Results read back

The values that a gate releases are written as the contract returns them: a pointer, the length of
the list and a word for each value. They can be written exactly if each fits in a word, and are then
read back. What is read of any other output, whatever it holds between the pointer and the list or
behind it, is read again from the form in which it is written.
-/

namespace ProofGate

namespace Calldata

/-! ## Items -/

theorem resultItem_int (n : ℤ) :
    resultItem (.int n) =
      if 0 ≤ n ∧ n < 2 ^ 256 then .ok (wordOf n.toNat) else .error .outOfBounds := by
  have bound := twoTo_cast 256
  simp only [resultItem]
  rw [bound]

/-- Integers are written item by item exactly if each fits in a word. -/
theorem resultItems_eq_ok_iff {vs : List ℤ} {ws : List Bytes} :
    resultItems (vs.map Value.int) = .ok ws ↔
      (∀ n ∈ vs, 0 ≤ n ∧ n < 2 ^ 256) ∧ ws = vs.map fun n => wordOf n.toNat := by
  induction vs generalizing ws with
  | nil =>
    constructor
    · rintro ⟨⟩
      exact ⟨by simp, rfl⟩
    · rintro ⟨_, rfl⟩
      rfl
  | cons n vs ih =>
    rw [List.forall_mem_cons, List.map_cons, resultItems, resultItem_int]
    by_cases fits : 0 ≤ n ∧ n < 2 ^ 256
    · rw [if_pos fits, ok_bind]
      constructor
      · intro read
        obtain ⟨rest, behind, read⟩ := bind_eq_ok.mp read
        cases read
        obtain ⟨small, rfl⟩ := ih.mp behind
        exact ⟨⟨fits, small⟩, rfl⟩
      · rintro ⟨⟨_, small⟩, rfl⟩
        rw [ih.mpr ⟨small, rfl⟩, ok_bind]
        rfl
    · rw [if_neg fits, error_bind]
      constructor
      · rintro ⟨⟩
      · rintro ⟨⟨fit, _⟩, _⟩
        exact absurd fit fits

/-! ## Results in their words -/

/-- A result with other bytes between the pointer and the list, and behind the list. -/
def spread (gap : Bytes) (ns : List ℕ) (rest : Bytes) : Bytes :=
  (wordOf (32 + gap.length) ++ gap) ++ (listWords (ns.map wordOf) ++ rest)

theorem encodeResult_eq_ok_iff {vs : List ℤ} {data : Bytes} :
    encodeResult (vs.map Value.int) = .ok data ↔
      (∀ n ∈ vs, 0 ≤ n ∧ n < 2 ^ 256) ∧ data = spread [] (vs.map Int.toNat) [] := by
  have words : (vs.map Int.toNat).map wordOf = vs.map fun n => wordOf n.toNat := List.map_map
  have whole : spread [] (vs.map Int.toNat) [] =
      wordOf 32 ++ listWords (vs.map fun n => wordOf n.toNat) := by
    rw [spread, words, List.append_nil, List.append_nil]
    rfl
  rw [whole, encodeResult, bind_eq_ok]
  constructor
  · rintro ⟨ws, items, written⟩
    cases written
    obtain ⟨small, rfl⟩ := resultItems_eq_ok_iff.mp items
    exact ⟨small, rfl⟩
  · rintro ⟨small, rfl⟩
    exact ⟨_, resultItems_eq_ok_iff.mpr ⟨small, rfl⟩, rfl⟩

/-- Data that hold a result: the first word points behind itself, to the length of the list, and
behind that stand its numbers, each of which fills a word. -/
structure Returned (data : Bytes) (ns : List ℕ) : Prop where
  behind : 32 ≤ place data
  length : data.cut (place data) 32 = wordOf ns.length
  few : ns.length < 2 ^ 256
  small : ∀ n ∈ ns, n < 2 ^ 256
  words : data.cut (place data + 32) (32 * ns.length) = (ns.map wordOf).flatten

theorem map_natBE_wordOf {ns : List ℕ} (small : ∀ n ∈ ns, n < 2 ^ 256) :
    (ns.map wordOf).map Bytes.natBE = ns := by
  rw [List.map_map]
  refine (List.map_congr_left fun n hn => ?_).trans (List.map_id ns)
  exact natBE_wordOf (small n hn)

theorem map_wordOf_natBE {ws : List Bytes} (widths : ∀ w ∈ ws, w.length = 32) :
    (ws.map Bytes.natBE).map wordOf = ws := by
  rw [List.map_map]
  refine (List.map_congr_left fun w hw => ?_).trans (List.map_id ws)
  show Bytes.ofNatBE 32 w.natBE = w
  rw [← widths w hw, Bytes.ofNatBE_natBE]

theorem widths_map_wordOf (ns : List ℕ) : ∀ w ∈ ns.map wordOf, w.length = 32 := by
  rw [List.forall_mem_map]
  exact fun n _ => length_wordOf n

/-- **Results.** A result is read exactly from the data that hold it. -/
theorem decodeResult_eq_ok_iff {data : Bytes} {ns : List ℕ} :
    decodeResult data = .ok ns ↔ Returned data ns := by
  constructor
  · intro read
    obtain ⟨p, pointed, read⟩ := bind_eq_ok.mp read
    obtain ⟨ws, listed, read⟩ := bind_eq_ok.mp read
    cases read
    obtain ⟨rfl, _, behind, _⟩ := pointer_eq_ok_iff.mp pointed
    obtain ⟨length, few, widths, row⟩ := listAt_eq_ok_iff.mp listed
    have size : (ws.map Bytes.natBE).length = ws.length := List.length_map _
    refine ⟨behind, by rw [size, length], by rwa [size], ?_, ?_⟩
    · rw [List.forall_mem_map]
      intro w hw
      have bound := Bytes.natBE_lt w
      rwa [widths w hw] at bound
    · rw [size, map_wordOf_natBE widths, row]
  · rintro ⟨behind, length, few, small, words⟩
    -- The length word is inside the data, so the pointer to it is.
    have inside := congrArg List.length length
    rw [length_wordOf, Bytes.cut, List.length_take, List.length_drop] at inside
    have pointed : pointer 32 data = .ok (place data) :=
      pointer_eq_ok_iff.mpr ⟨rfl, by omega, behind, by omega⟩
    have size : (ns.map wordOf).length = ns.length := List.length_map _
    have listed : listAt data (place data) = .ok (ns.map wordOf) :=
      listAt_eq_ok_iff.mpr ⟨by rw [size, length], by rwa [size], widths_map_wordOf ns,
        by rw [size, words]⟩
    rw [decodeResult, pointed, ok_bind, listed, ok_bind, map_natBE_wordOf small]
    rfl

/-- **Other forms.** A result is read wherever its list stands and whatever is around. -/
theorem returned_spread {gap : Bytes} (near : 32 + gap.length < 2 ^ 256) {ns : List ℕ}
    (few : ns.length < 2 ^ 256) (small : ∀ n ∈ ns, n < 2 ^ 256) (rest : Bytes) :
    Returned (spread gap ns rest) ns := by
  have front : (wordOf (32 + gap.length) ++ gap).length = 32 + gap.length := by
    rw [List.length_append, length_wordOf]
  have items : (listWords (ns.map wordOf)).length = 32 + 32 * ns.length := by
    rw [listWords, List.length_append, length_wordOf, Bytes.length_flatten (widths_map_wordOf ns),
      List.length_map]
  have list (start count : ℕ) (inside : start + count ≤ 32 + 32 * ns.length) :
      (spread gap ns rest).cut (32 + gap.length + start) count =
        (listWords (ns.map wordOf)).cut start count := by
    have behind := Bytes.cut_append_right (wordOf (32 + gap.length) ++ gap)
      (listWords (ns.map wordOf) ++ rest) start count
    rw [front] at behind
    rw [spread, behind, Bytes.cut_append_left (by omega)]
  have place : place (spread gap ns rest) = 32 + gap.length := by
    rw [Calldata.place, spread, Bytes.cut_zero, List.append_assoc,
      List.take_left' (length_wordOf _), natBE_wordOf near]
  constructor
  case behind => omega
  case few => exact few
  case small => exact small
  case length =>
    have length := list 0 32 (by omega)
    rw [Nat.add_zero, Bytes.cut_zero, listWords, List.take_left' (length_wordOf _)] at length
    rw [place, length, List.length_map]
  case words =>
    have words := list 32 (32 * ns.length) (by omega)
    have behind := Bytes.cut_append_right (wordOf (ns.map wordOf).length) (ns.map wordOf).flatten 0
      (32 * ns.length)
    rw [length_wordOf] at behind
    rw [place, words, listWords, behind, Bytes.cut_zero, List.take_of_length_le]
    rw [Bytes.length_flatten (widths_map_wordOf ns), List.length_map]

/-! ## Texts -/

/-- Values that are written as a text and read back from it. -/
def ReadBack (ns : List ℕ) : Prop :=
  ∃ t, encodeResultText (.list (ns.map fun n : ℕ => .int n)) = .ok t ∧ resultOf (.text t) = .ok ns

theorem encodeResultText_eq_ok_iff {vs : List ℤ} {t : Text} :
    encodeResultText (.list (vs.map Value.int)) = .ok t ↔
      (∀ n ∈ vs, 0 ≤ n ∧ n < 2 ^ 256) ∧ t = Hex.marked (spread [] (vs.map Int.toNat) []) := by
  rw [encodeResultText, Member.elements, ok_bind, bind_eq_ok]
  constructor
  · rintro ⟨data, encoded, written⟩
    cases written
    obtain ⟨small, rfl⟩ := encodeResult_eq_ok_iff.mp encoded
    exact ⟨small, rfl⟩
  · rintro ⟨small, rfl⟩
    exact ⟨_, encodeResult_eq_ok_iff.mpr ⟨small, rfl⟩, rfl⟩

theorem resultOf_marked (data : Bytes) : resultOf (.text (Hex.marked data)) = decodeResult data := by
  rw [resultOf, Word.looseBytes_of_spells (Hex.spells_marked _), ok_bind]

theorem encodeResultText_of_small {ns : List ℕ} (small : ∀ n ∈ ns, n < 2 ^ 256) :
    encodeResultText (.list (ns.map fun n : ℕ => .int n)) = .ok (Hex.marked (spread [] ns [])) := by
  have values : (ns.map fun n : ℕ => Value.int n) = (ns.map Int.ofNat).map Value.int :=
    List.map_map.symm
  have back : (ns.map Int.ofNat).map Int.toNat = ns := by
    rw [List.map_map]
    exact List.map_id ns
  rw [values, encodeResultText_eq_ok_iff, back, List.forall_mem_map]
  refine ⟨fun n hn => ?_, rfl⟩
  have bound : (n : ℤ) < ((2 ^ 256 : ℕ) : ℤ) := Int.ofNat_lt.mpr (small n hn)
  exact ⟨Int.natCast_nonneg n, by simpa using bound⟩

/-- Values that fit in words are read back, unless there are too many to be counted in one. -/
theorem readBack_of_small {ns : List ℕ} (few : ns.length < 2 ^ 256)
    (small : ∀ n ∈ ns, n < 2 ^ 256) : ReadBack ns := by
  refine ⟨_, encodeResultText_of_small small, ?_⟩
  rw [resultOf_marked, decodeResult_eq_ok_iff]
  exact returned_spread (by norm_num) few small []

/-- Every result has another output, which is longer. -/
theorem exists_longer {ns : List ℕ} (few : ns.length < 2 ^ 256) (small : ∀ n ∈ ns, n < 2 ^ 256) :
    ∃ t out, encodeResultText (.list (ns.map fun n : ℕ => .int n)) = .ok t ∧
      resultOf (.text out) = .ok ns ∧ Word.looseBytes (.text out) ≠ Word.looseBytes (.text t) := by
  refine ⟨_, Hex.marked (spread [0] ns [0]), encodeResultText_of_small small, ?_, ?_⟩
  · rw [resultOf_marked, decodeResult_eq_ok_iff]
    exact returned_spread (by norm_num) few small [0]
  · rw [Word.looseBytes_of_spells (Hex.spells_marked _),
      Word.looseBytes_of_spells (Hex.spells_marked _)]
    intro same
    have sizes := congrArg List.length (Except.ok.inj same)
    simp [spread, length_wordOf] at sizes
    omega

end Calldata

/-! ## Released values -/

/-- A statement that was offered has no more bytes than a bundle holds. -/
theorem Offer.length_statement {o : Offer} {parts : Parts} {p : Bytes} (read : o.parts = .ok parts)
    (statement : parts.statement = .ok p) : p.length ≤ 368 := by
  cases o with
  | bundle b =>
    cases read
    cases statement
    exact b.length_statement.le
  | loose l =>
    obtain ⟨proof, _, read⟩ := bind_eq_ok.mp read
    obtain ⟨inputs, _, read⟩ := bind_eq_ok.mp read
    cases read
    obtain ⟨words, _, statement⟩ := bind_eq_ok.mp statement
    cases statement
    rw [List.length_take]
    exact Nat.min_le_left ..
  | words v =>
    obtain ⟨b, _, rfl⟩ := map_eq_ok.mp read
    cases statement
    exact b.length_statement.le

theorem Digits.inside_of_directs {data : Bytes} {offsets : List ℤ} {ns : List ℕ}
    (h : directs data offsets = .ok ns) : ∀ o ∈ offsets, 0 ≤ o ∧ o + 4 ≤ data.length := by
  induction offsets generalizing ns with
  | nil => simp
  | cons offset offsets ih =>
    obtain ⟨n, first, h⟩ := bind_eq_ok.mp h
    obtain ⟨rest, others, h⟩ := bind_eq_ok.mp h
    obtain ⟨bs, read, _⟩ := map_eq_ok.mp first
    rw [List.forall_mem_cons]
    exact ⟨(bytesAt_eq_ok_iff.mp read).1, ih others⟩

/-- Digits of a span are read from bytes that have room for all of them. -/
theorem Digits.length_directs {data : Bytes} {s : Span} {ns : List ℕ}
    (h : directs data s.digitOffsets = .ok ns) : ns.length ≤ data.length := by
  have inside := inside_of_directs h
  have count : ns.length = s.digits.toNat := by
    rw [(forall₂_of_directs h).length_eq, Span.digitOffsets, List.length_map, List.length_range]
  by_cases none : s.digits.toNat = 0
  · omega
  · have place (i : ℕ) (few : i < s.digits.toNat) : s.offset + Int.ofNat i * 8 ∈ s.digitOffsets :=
      List.mem_map_of_mem (List.mem_range.mpr few)
    have first := inside _ (place 0 (by omega))
    have last := inside _ (place (s.digits.toNat - 1) (by omega))
    simp only [Int.ofNat_eq_natCast] at first last
    omega

theorem Release.values_few {l : Layout} {data : Bytes} {v : Value} {ns : List ℕ}
    (h : values l data v = .ok ns) : ns.length ≤ data.length + 1 ∧ ∀ n ∈ ns, n < 2 ^ 32 := by
  unfold values at h
  split at h
  · exact ⟨Nat.le_succ_of_le (Digits.length_directs h), Digits.lt_of_directs h⟩
  · obtain ⟨amount, read, h⟩ := bind_eq_ok.mp h
    cases h
    refine ⟨by simp, ?_⟩
    rw [List.forall_mem_singleton]
    exact Digits.lt_of_union read
  · cases h

/-- A gate releases as many values as the bytes of a bundle hold, each of 32 bits at most. -/
theorem Gate.released_few {σ : Type} {g : Gate σ} {o : Offer} {q : Query} {s : σ} {ns : List ℕ}
    (released : (g.release o q s).outcome = .ok ns) :
    ns.length ≤ 369 ∧ ∀ n ∈ ns, n < 2 ^ 32 := by
  obtain ⟨parts, read, _, p, st, settled⟩ := release_outcome_eq_ok.mp released
  have size := Offer.length_statement read settled.statement
  obtain ⟨few, small⟩ := Release.values_few settled.released
  exact ⟨by omega, small⟩

namespace Calldata

/-- **Round trip.** Integers are written exactly if each fits in a word, and are then read back, if
they are few enough for a word to count them. So are the values that a gate releases, whatever its
layout, and those that are read of any output. That output need not be the one that is written: the
same values are read from others that hold more. -/
theorem resultOf_encodeResultText :
    (∀ vs : List ℤ, (∃ t, encodeResultText (.list (vs.map Value.int)) = .ok t) ↔
      ∀ n ∈ vs, 0 ≤ n ∧ n < 2 ^ 256) ∧
    (∀ (vs : List ℤ) (t : Text), vs.length < 2 ^ 256 →
      encodeResultText (.list (vs.map Value.int)) = .ok t →
      ∃ ns, resultOf (.text t) = .ok ns ∧ ns.map Int.ofNat = vs) ∧
    (∀ (σ : Type) (g : Gate σ) (o : Offer) (q : Query) (s : σ) (ns : List ℕ),
      (g.release o q s).outcome = .ok ns → ReadBack ns) ∧
    ∀ (v : Value) (ns : List ℕ), resultOf v = .ok ns →
      ReadBack ns ∧
      ∃ t out, encodeResultText (.list (ns.map fun n : ℕ => .int n)) = .ok t ∧
        resultOf (.text out) = .ok ns ∧ Word.looseBytes (.text out) ≠ Word.looseBytes (.text t) := by
  refine ⟨?written, ?again, ?released, ?read⟩
  case written =>
    intro vs
    constructor
    · rintro ⟨t, written⟩
      exact (encodeResultText_eq_ok_iff.mp written).1
    · intro small
      exact ⟨_, encodeResultText_eq_ok_iff.mpr ⟨small, rfl⟩⟩
  case again =>
    intro vs t few written
    obtain ⟨small, rfl⟩ := encodeResultText_eq_ok_iff.mp written
    refine ⟨vs.map Int.toNat, ?_, ?_⟩
    · rw [resultOf_marked, decodeResult_eq_ok_iff]
      refine returned_spread (by norm_num) (by rwa [List.length_map]) ?_ []
      rw [List.forall_mem_map]
      intro n hn
      have := (small n hn).2
      omega
    · rw [List.map_map]
      refine (List.map_congr_left fun n hn => ?_).trans (List.map_id vs)
      exact Int.toNat_of_nonneg (small n hn).1
  case released =>
    intro σ g o q s ns released
    obtain ⟨few, small⟩ := Gate.released_few released
    exact readBack_of_small (lt_of_le_of_lt few (by norm_num))
      fun n hn => lt_trans (small n hn) (by norm_num)
  case read =>
    intro v ns read
    obtain ⟨data, _, read⟩ := bind_eq_ok.mp read
    have returned := decodeResult_eq_ok_iff.mp read
    exact ⟨readBack_of_small returned.few returned.small, exists_longer returned.few returned.small⟩

/-- The least and the greatest number of a word are read back and the next one is not written; the
values of the sample are read back, and so is one that stands behind a gap. -/
theorem resultOf_encodeResultText_sample :
    (∃ t ns, encodeResultText (.list ([0, 2 ^ 256 - 1].map Value.int)) = .ok t ∧
      resultOf (.text t) = .ok ns ∧ ns.map Int.ofNat = [0, 2 ^ 256 - 1]) ∧
    (¬ ∃ t, encodeResultText (.list ([2 ^ 256].map Value.int)) = .ok t) ∧
    (∃ claimed, (Sample.gate.release (.bundle (Sample.bundle claimed 0)) (Sample.query (.ofNat 0))
      ()).outcome = .ok [0, 0, 0, 0, 0]) ∧ ReadBack [0, 0, 0, 0, 0] ∧
    resultOf (.bytes (spread [1, 2, 3] [7] [4])) = .ok [7] ∧ ReadBack [7] := by
  obtain ⟨written, again, released, read⟩ := resultOf_encodeResultText
  obtain ⟨t, first⟩ := (written [0, 2 ^ 256 - 1]).mpr (by norm_num)
  obtain ⟨ns, back, same⟩ := again _ t (by norm_num) first
  obtain ⟨claimed, binds⟩ : ∃ n, n = Binding.statementDigest (Sample.statement 0) := ⟨_, rfl⟩
  have passes := Sample.released binds (.ofNat 0)
  have apart : resultOf (.bytes (spread [1, 2, 3] [7] [4])) = .ok [7] := by
    rw [resultOf, Word.looseBytes, ok_bind, decodeResult_eq_ok_iff]
    exact returned_spread (by norm_num) (by norm_num) (by norm_num) [4]
  refine ⟨⟨t, ns, first, back, same⟩, fun wide => ?_, ⟨claimed, passes⟩, released _ _ _ _ _ _ passes,
    apart, (read _ _ apart).1⟩
  have fits := (written [2 ^ 256]).mp wide (2 ^ 256) List.mem_cons_self
  exact absurd fits.2 (lt_irrefl _)

end Calldata

end ProofGate
