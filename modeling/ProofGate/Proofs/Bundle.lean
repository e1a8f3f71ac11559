import ProofGate.Bundle.Parts
import ProofGate.Proofs.Statement.Words
import ProofGate.Proofs.Word
import Mathlib.Data.List.Basic
import Mathlib.Tactic.Common

/-!
# Words and their views

Whatever is wrong with words that make no bundle, the failure is that of a malformed bundle. What
they do make has views of fixed sizes, each of them over words of its own. A bundle put together
from its three parts shows these parts again.
-/

namespace ProofGate

/-! ## Malformed words -/

theorem Word.kind_of_ofValue {index : ℕ} {isLast : Bool} {v : Value} {e : Failure}
    (h : Word.ofValue index isLast v = .error e) : e.kind = .malformedBundle := by
  have number {n : Int} (h : Word.ofInt index n = .error e) : e.kind = .malformedBundle := by
    unfold Word.ofInt at h
    split at h
    · cases h
    · cases h
      rfl
  have bytes {bs : Bytes} (h : Word.ofBytes index isLast bs = .error e) :
      e.kind = .malformedBundle := by
    unfold Word.ofBytes at h
    split at h
    · cases h
    · split at h
      · cases h
      · cases h
        rfl
  unfold Word.ofValue at h
  split at h
  · exact number h
  · exact number h
  · split at h
    · exact bytes h
    · cases h
      rfl

theorem Word.kind_of_ofValues {endsList : Bool} {index : ℕ} {vs : List Value} {e : Failure}
    (h : Word.ofValues endsList index vs = .error e) : e.kind = .malformedBundle := by
  induction vs generalizing index with
  | nil => cases h
  | cons v vs ih =>
    rw [Word.ofValues, bind_eq_error] at h
    obtain hw | ⟨w, _, h⟩ := h
    · exact Word.kind_of_ofValue hw
    · rw [bind_eq_error] at h
      obtain hws | ⟨ws, _, h⟩ := h
      · exact ih hws
      · cases h

theorem Bundle.kind_of_check {words : List Bytes} {e : Failure}
    (h : Bundle.check words = .error e) : e.kind = .malformedBundle := by
  unfold Bundle.check at h
  split at h
  · split at h
    · cases h
    · cases h
      rfl
  · cases h
    rfl

/-! ## Views -/

namespace Bundle

theorem length_proof (b : Bundle) : b.proof.length = 8 := by
  rw [proof, List.length_map, List.length_take, b.count]
  rfl

theorem length_inputs (b : Bundle) : b.inputs.length = 3 := by
  rw [inputs, List.length_map, List.length_take, List.length_drop, b.count]
  rfl

/-- Twelve words hold the statement and sixteen bytes of filling. -/
theorem length_statement (b : Bundle) : b.statement.length = 368 := by
  have widths : ∀ w ∈ b.words.drop (proofWords + inputWords), w.length = 32 :=
    fun w hw => b.widths w (List.mem_of_mem_drop hw)
  rw [statement, List.length_take, Bytes.length_flatten widths, List.length_drop, b.count]
  rfl

theorem getElem?_proof (b : Bundle) (k : ℕ) :
    b.proof[k]? = if k < 8 then b.words[k]?.map Bytes.natBE else none := by
  rw [proof, List.getElem?_map, proofWords, List.getElem?_take]
  split <;> rfl

theorem getElem?_inputs (b : Bundle) (k : ℕ) :
    b.inputs[k]? = if k < 3 then b.words[8 + k]?.map Bytes.natBE else none := by
  rw [inputs, List.getElem?_map, inputWords, List.getElem?_take, List.getElem?_drop]
  split <;> rfl

theorem inputs_getD (b : Bundle) {i : ℕ} (h : i < 3) :
    b.inputs.getD i 0 = (b.words.getD (8 + i) []).natBE := by
  have empty : (0 : ℕ) = Bytes.natBE [] := rfl
  rw [List.getD_eq_getElem?_getD, List.getD_eq_getElem?_getD, getElem?_inputs, if_pos h, empty,
    Option.getD_map]

/-- The proof and its inputs are in the first eleven words. -/
theorem numbers_of_head {b b' : Bundle} (head : b'.words.take 11 = b.words.take 11) :
    b'.proof = b.proof ∧ b'.inputs = b.inputs := by
  have word {k : ℕ} (h : k < 11) : b'.words[k]? = b.words[k]? := by
    rw [← List.getElem?_take_of_lt h, head, List.getElem?_take_of_lt h]
  constructor
  · refine List.ext_getElem? fun k => ?_
    rw [getElem?_proof, getElem?_proof]
    split
    · next inside => rw [word (by omega)]
    · rfl
  · refine List.ext_getElem? fun k => ?_
    rw [getElem?_inputs, getElem?_inputs]
    split
    · next inside => rw [word (by omega)]
    · rfl

end Bundle

/-! ## Building -/

/-- Numbers in range are written as words. -/
theorem Word.ofValues_numbers {ns : List ℕ} (small : ∀ n ∈ ns, n < 2 ^ 256) (index : ℕ) :
    Word.ofValues false index (ns.map fun n : ℕ => Value.int n) =
      .ok (ns.map (Bytes.ofNatBE 32)) := by
  refine Word.ofValues_written ?_ ?_ false index
  · rw [List.forall_mem_map]
    exact fun n _ => Bytes.length_ofNatBE ..
  · rw [List.forall₂_map_left_iff, List.forall₂_map_right_iff, List.forall₂_same]
    exact fun n hn => .of_number (small n hn)

namespace Bundle

/-- Eight numbers of a proof, three inputs and a statement are put together word by word. -/
theorem build_words {proof inputs : List ℕ} {data : Bytes} (eight : proof.length = 8)
    (three : inputs.length = 3) (smallProof : ∀ n ∈ proof, n < 2 ^ 256)
    (smallInputs : ∀ n ∈ inputs, n < 2 ^ 256) (size : data.length = 368) :
    ∃ b, build (.list (proof.map fun n : ℕ => .int n)) (.list (inputs.map fun n : ℕ => .int n))
        (.bytes data) = .ok b ∧
      b.words = proof.map (Bytes.ofNatBE 32) ++ inputs.map (Bytes.ofNatBE 32) ++
        Statement.splitWords data := by
  obtain ⟨count, widths, _⟩ := Statement.splitWords_eq size
  have numbers (ns : List ℕ) : ∀ w ∈ ns.map (Bytes.ofNatBE 32), w.length = 32 := by
    rw [List.forall_mem_map]
    exact fun n _ => Bytes.length_ofNatBE ..
  obtain ⟨words, put⟩ : ∃ words, words = proof.map (Bytes.ofNatBE 32) ++
      inputs.map (Bytes.ofNatBE 32) ++ Statement.splitWords data := ⟨_, rfl⟩
  have total : words.length = 23 := by
    rw [put, List.length_append, List.length_append, List.length_map, List.length_map, eight, three,
      count]
  have sizes : ∀ w ∈ words, w.length = 32 := by
    rw [put, List.forall_mem_append, List.forall_mem_append]
    exact ⟨⟨numbers proof, numbers inputs⟩, widths⟩
  have whole : check words = .ok ⟨words, total, sizes⟩ := check_words ⟨words, total, sizes⟩
  have listed (vs : List Value) : Member.sized (.list vs) = .ok vs := rfl
  have elements : Member.sized (.bytes data) = .ok (data.map fun b => .int b.toNat) := rfl
  have blob : blobOf (.bytes data) = .ok data := rfl
  refine ⟨⟨words, total, sizes⟩, ?_, put⟩
  simp only [build, listed, elements, blob, ok_bind, List.length_map, eight, three, size,
    proofWords, inputWords, Layout.bytesInBundle, Word.ofValues_numbers smallProof,
    Word.ofValues_numbers smallInputs, ← put, ne_eq, not_true_eq_false, if_false]
  exact whole

/-- **Building.** Eight numbers of a proof, three inputs and a statement make a bundle, and its
views are what it was made of. -/
theorem build_eq_ok {proof inputs : List ℕ} {data : Bytes} (eight : proof.length = 8)
    (three : inputs.length = 3) (smallProof : ∀ n ∈ proof, n < 2 ^ 256)
    (smallInputs : ∀ n ∈ inputs, n < 2 ^ 256) (size : data.length = 368) :
    ∃ b, build (.list (proof.map fun n : ℕ => .int n)) (.list (inputs.map fun n : ℕ => .int n))
      (.bytes data) = .ok b ∧ b.proof = proof ∧ b.inputs = inputs ∧ b.statement = data := by
  have back {ns : List ℕ} (small : ∀ n ∈ ns, n < 2 ^ 256) :
      (ns.map (Bytes.ofNatBE 32)).map Bytes.natBE = ns := by
    rw [List.map_map]
    refine (List.map_congr_left fun n hn => ?_).trans (List.map_id ns)
    have inside : n < 256 ^ 32 := small n hn
    exact (Bytes.natBE_ofNatBE 32 n).trans (Nat.mod_eq_of_lt inside)
  have first : (proof.map (Bytes.ofNatBE 32)).length = 8 := by rw [List.length_map, eight]
  have second : (inputs.map (Bytes.ofNatBE 32)).length = 3 := by rw [List.length_map, three]
  have head : (proof.map (Bytes.ofNatBE 32) ++ inputs.map (Bytes.ofNatBE 32)).length = 11 := by
    rw [List.length_append, first, second]
  obtain ⟨b, built, words⟩ := build_words eight three smallProof smallInputs size
  refine ⟨b, built, ?proof, ?inputs, ?statement⟩
  case proof =>
    show (b.words.take 8).map Bytes.natBE = proof
    rw [words, List.append_assoc, List.take_left' first, back smallProof]
  case inputs =>
    show ((b.words.drop 8).take 3).map Bytes.natBE = inputs
    rw [words, List.append_assoc, List.drop_left' first, List.take_left' second, back smallInputs]
  case statement =>
    show (b.words.drop 11).flatten.take 368 = data
    rw [words, List.drop_left' head, (Statement.splitWords_eq size).2.2, List.take_left' size]

end Bundle

end ProofGate
