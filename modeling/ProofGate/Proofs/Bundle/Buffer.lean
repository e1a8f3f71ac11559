import ProofGate.Proofs.Bundle
import Mathlib.Data.List.GetD

/-!
# Bundles by their bytes

A bundle is told by its 736 bytes. A prover writes the first 720 of them, which the proof, the
inputs and the statement are read off; what stands behind is filling. A blob that ends within the
last word is taken with zeros for the bytes that it lacks.
-/

namespace ProofGate

/-- Only the last word of a row may be short; it is filled up. -/
theorem Word.ofValues_short {ws : List Bytes} (widths : ∀ w ∈ ws, w.length = 32) {last : Bytes}
    (some : last ≠ []) (short : last.length ≤ 32) (index : ℕ) :
    Word.ofValues true index ((ws ++ [last]).map Value.bytes) = .ok (ws ++ [last.padTo 32]) := by
  induction ws generalizing index with
  | nil =>
    have taken : Word.ofValue index true (.bytes last) = .ok (last.padTo 32) :=
      Word.ofValue_eq_ok_iff.mpr (.bytes (.padTo some short))
    rw [List.nil_append, List.map_singleton, Word.ofValues, List.isEmpty_nil, Bool.and_true, taken]
    rfl
  | cons w ws ih =>
    rw [List.forall_mem_cons] at widths
    rw [List.cons_append, List.map_cons, Word.ofValues, Word.ofValue_written widths.1 .bytes,
      ok_bind, ih widths.2, ok_bind]
    rfl

namespace Bundle

/-! ## Bytes of a bundle -/

theorem length_toBuffer (b : Bundle) : b.toBuffer.length = 736 := by
  rw [toBuffer, Bytes.length_flatten b.widths, b.count]

theorem ext_toBuffer {b c : Bundle} (same : b.toBuffer = c.toBuffer) : b = c := by
  have words : b.words = c.words := by
    rw [← Bytes.chunks_flatten (by decide) b.widths, ← Bytes.chunks_flatten (by decide) c.widths]
    exact congrArg (Bytes.chunks 32) same
  cases b
  cases c
  cases words
  rfl

theorem length_head (b : Bundle) : (b.words.take 11).flatten.length = 352 := by
  rw [Bytes.length_flatten fun w hw => b.widths w (List.mem_of_mem_take hw), List.length_take,
    b.count]
  rfl

theorem toBytes_eq_take (b : Bundle) : b.toBytes = b.toBuffer.take 720 := by
  have split : b.toBuffer = (b.words.take 11).flatten ++ (b.words.drop 11).flatten := by
    rw [toBuffer, ← List.flatten_append, List.take_append_drop]
  have cut : ((b.words.take 11).flatten ++ (b.words.drop 11).flatten).take
      ((b.words.take 11).flatten.length + 368) =
        (b.words.take 11).flatten ++ (b.words.drop 11).flatten.take 368 :=
    List.take_length_add_append 368
  rw [length_head] at cut
  rw [split]
  exact cut.symm

theorem length_toBytes (b : Bundle) : b.toBytes.length = 720 := by
  rw [toBytes_eq_take, List.length_take, length_toBuffer]
  rfl

/-- The proof, the inputs and the statement are in the bytes that a prover writes. -/
theorem views_of_toBytes {b c : Bundle} (same : b.toBytes = c.toBytes) :
    b.proof = c.proof ∧ b.inputs = c.inputs ∧ b.statement = c.statement := by
  obtain ⟨flat, statement⟩ := List.append_inj same ((length_head b).trans (length_head c).symm)
  have head : b.words.take 11 = c.words.take 11 := by
    rw [← Bytes.chunks_flatten (by decide) fun w hw => b.widths w (List.mem_of_mem_take hw),
      ← Bytes.chunks_flatten (by decide) fun w hw => c.widths w (List.mem_of_mem_take hw)]
    exact congrArg (Bytes.chunks 32) flat
  obtain ⟨proof, inputs⟩ := numbers_of_head head
  exact ⟨proof, inputs, statement⟩

/-! ## Blobs -/

/-- The pieces of bytes are read as the words that these are split into. -/
theorem ofBytes_eq_check (data : Bytes) : ofBytes data = check (Statement.splitWords data) := by
  have words : Word.ofValues true 0 ((data.chunks 32).map Value.bytes) =
      .ok (Statement.splitWords data) := by
    by_cases none : data = []
    · rw [none, Statement.splitWords, Bytes.chunks_nil]
      rfl
    · obtain ⟨pieces, last, cut, split, _, widths, some, short⟩ :=
        Statement.exists_splitWords none
      rw [cut, split, Word.ofValues_short widths some short]
  rw [ofBytes, ofWordList, Word.length, words, ok_bind]

/-- **Blobs.** Bytes that end within the last word make a bundle, which holds them and zeros. -/
theorem ofBytes_eq_ok {data : Bytes} (low : 704 < data.length) (high : data.length ≤ 736) :
    ∃ b, ofBytes data = .ok b ∧ b.toBuffer = data ++ Bytes.zeros (736 - data.length) := by
  obtain ⟨length, widths, flat⟩ := Statement.splitWords_spec data
  have count : (data.length + 31) / 32 = 23 := by omega
  rw [count] at length flat
  refine ⟨⟨Statement.splitWords data, length, widths⟩, ?_, flat⟩
  rw [ofBytes_eq_check]
  exact check_words ⟨_, length, widths⟩

/-- Bytes that end elsewhere make another number of words. -/
theorem ofBytes_eq_error {data : Bytes} (outside : ¬ (704 < data.length ∧ data.length ≤ 736)) :
    ofBytes data = .error (.bundleSize 23 ((data.length + 31) / 32)) := by
  have length := (Statement.splitWords_spec data).1
  rw [ofBytes_eq_check, check_of_miscount (by omega), length]

/-- What a blob makes holds its bytes and zeros, and nothing but that makes it. -/
theorem ofBytes_eq_ok_iff {d : Bytes} {b : Bundle} : ofBytes d = .ok b ↔
    705 ≤ d.length ∧ d.length ≤ 736 ∧ b.toBuffer = d ++ Bytes.zeros (736 - d.length) := by
  by_cases inside : 704 < d.length ∧ d.length ≤ 736
  · obtain ⟨c, read, buffer⟩ := ofBytes_eq_ok inside.1 inside.2
    rw [read, Except.ok.injEq]
    constructor
    · rintro rfl
      exact ⟨inside.1, inside.2, buffer⟩
    · rintro ⟨_, _, same⟩
      exact ext_toBuffer (buffer.trans same.symm)
  · rw [ofBytes_eq_error inside]
    exact iff_of_false (by rintro ⟨⟩) fun ⟨low, high, _⟩ => inside ⟨low, high⟩

/-! ## Filling -/

/-- The bundle with zeros for the sixteen bytes behind its statement. -/
def unfilled (b : Bundle) : Bundle where
  words := b.words.take 22 ++ [(b.words.getD 22 []).take 16 ++ Bytes.zeros 16]
  count := by
    rw [List.length_append, List.length_take, b.count]
    rfl
  widths := by
    have last : (b.words.getD 22 []).length = 32 := by
      rw [List.getD_eq_getElem _ _ (by rw [b.count]; decide)]
      exact b.widths _ (List.getElem_mem _)
    rw [List.forall_mem_append, List.forall_mem_singleton, List.length_append, List.length_take,
      last]
    exact ⟨fun w hw => b.widths w (List.mem_of_mem_take hw), rfl⟩

theorem toBuffer_unfilled (b : Bundle) : b.unfilled.toBuffer = b.toBytes ++ Bytes.zeros 16 := by
  have inside : 22 < b.words.length := by
    rw [b.count]
    decide
  have last : b.words.drop 22 = [b.words.getD 22 []] := by
    rw [List.drop_eq_getElem_cons inside, List.getD_eq_getElem _ _ inside,
      List.drop_of_length_le (by rw [b.count])]
  have front : (b.words.take 22).flatten.length = 704 := by
    rw [Bytes.length_flatten fun w hw => b.widths w (List.mem_of_mem_take hw), List.length_take,
      b.count]
    rfl
  have whole : b.toBuffer = (b.words.take 22).flatten ++ b.words.getD 22 [] := by
    rw [toBuffer, ← List.flatten_singleton (l := b.words.getD 22 []), ← List.flatten_append, ← last,
      List.take_append_drop]
  have cut : ((b.words.take 22).flatten ++ b.words.getD 22 []).take
      ((b.words.take 22).flatten.length + 16) =
        (b.words.take 22).flatten ++ (b.words.getD 22 []).take 16 :=
    List.take_length_add_append 16
  rw [front, ← whole] at cut
  show (b.words.take 22 ++ [(b.words.getD 22 []).take 16 ++ Bytes.zeros 16]).flatten = _
  rw [List.flatten_append, List.flatten_singleton, ← List.append_assoc, ← cut, toBytes_eq_take]

/-- A bundle without filling is told by the bytes that a prover writes. -/
theorem eq_unfilled {b c : Bundle} (same : c.toBuffer = b.toBytes ++ Bytes.zeros 16) :
    c = b.unfilled :=
  ext_toBuffer (same.trans (toBuffer_unfilled b).symm)

theorem toBytes_unfilled (b : Bundle) : b.unfilled.toBytes = b.toBytes := by
  rw [toBytes_eq_take b.unfilled, toBuffer_unfilled, List.take_left' (length_toBytes b)]

end Bundle

end ProofGate
