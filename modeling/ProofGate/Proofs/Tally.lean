import ProofGate.Tally
import ProofGate.Proofs.Run
import ProofGate.Proofs.Value
import Mathlib.Data.List.Induction
import Mathlib.Data.List.Perm.Basic

/-!
# Counting

Counts under keys lose nothing: each key that is a truth value, an integer or a text has one entry,
which says how often it was counted, in whichever order, and all entries together say how often
anything was.
-/

namespace ProofGate

namespace Tally

/-- How often anything was counted. -/
def counted : List (Value × ℕ) → ℕ
  | [] => 0
  | (_, n) :: rest => n + counted rest

/-- How often a key was counted. -/
def under (counts : List (Value × ℕ)) (key : Value) : ℕ :=
  match counts with
  | [] => 0
  | (k, n) :: rest => if k.sameKey key then n else under rest key

/-- The count of a key, if it was counted at all. -/
def value? (counts : List (Value × ℕ)) (key : Value) : Option ℕ :=
  (counts.find? fun c => c.1.sameKey key).map Prod.snd

/-- No two entries are for the same key. -/
def Apart (counts : List (Value × ℕ)) : Prop :=
  counts.Pairwise fun c d => ¬ c.1.sameKey d.1 = true

variable {counts : List (Value × ℕ)} {keys : List Value} {key : Value}

/-! ## One key -/

theorem counted_count (counts : List (Value × ℕ)) (key : Value) :
    counted (count counts key) = counted counts + 1 := by
  induction counts with
  | nil => rfl
  | cons c rest ih =>
    obtain ⟨k, n⟩ := c
    rw [count]
    split
    · rw [counted, counted]
      omega
    · rw [counted, counted, ih]
      omega

/-- No key appears but the one that is counted. -/
theorem mem_keys_count {k : Value}
    (h : k ∈ (count counts key).map Prod.fst) : k ∈ counts.map Prod.fst ∨ k = key := by
  induction counts with
  | nil => exact Or.inr (List.mem_singleton.mp h)
  | cons c rest ih =>
    obtain ⟨first, n⟩ := c
    rw [count] at h
    split at h
    · exact Or.inl h
    · rw [List.map_cons, List.mem_cons] at h ⊢
      obtain here | there := h
      · exact Or.inl (Or.inl here)
      · obtain old | new := ih there
        · exact Or.inl (Or.inr old)
        · exact Or.inr new

theorem value?_cons (k : Value) (n : ℕ) (counts : List (Value × ℕ)) (key : Value) :
    value? ((k, n) :: counts) key = if k.sameKey key then some n else value? counts key := by
  rw [value?, List.find?_cons]
  cases k.sameKey key <;> rfl

theorem under_eq_value? (counts : List (Value × ℕ)) (key : Value) :
    under counts key = (value? counts key).getD 0 := by
  induction counts with
  | nil => rfl
  | cons c counts ih =>
    obtain ⟨k, n⟩ := c
    rw [under, value?_cons, ih]
    split <;> rfl

theorem value?_count (discrete : ∀ c ∈ counts, c.1.Discrete) (hkey : key.Discrete) (k : Value) :
    value? (count counts key) k =
      if key.sameKey k then some ((value? counts k).getD 0 + 1) else value? counts k := by
  induction counts with
  | nil => exact value?_cons _ _ _ _
  | cons c counts ih =>
    obtain ⟨first, n⟩ := c
    rw [List.forall_mem_cons] at discrete
    have first_iff := discrete.1.sameKey_iff
    have key_iff := hkey.sameKey_iff
    rw [count]
    by_cases here : first.sameKey key = true
    · rw [if_pos here, value?_cons, value?_cons]
      have both : first.sameKey k = key.sameKey k := by
        rw [Bool.eq_iff_iff, first_iff, key_iff, (first_iff key).mp here]
      rw [both]
      split <;> rfl
    · rw [if_neg here, value?_cons, value?_cons, ih discrete.2]
      by_cases other : key.sameKey k = true
      · -- The first entry is not for `key`, so it is not for `k` either.
        have apart : ¬ first.sameKey k = true := by
          rw [first_iff, ← (key_iff k).mp other, ← first_iff]
          exact here
        rw [if_pos other, if_pos other, if_neg apart, if_neg apart]
      · rw [if_neg other, if_neg other]

theorem Apart.count (apart : Apart counts) (key : Value) : Apart (count counts key) := by
  induction counts with
  | nil => exact List.pairwise_singleton _ _
  | cons c counts ih =>
    obtain ⟨first, n⟩ := c
    obtain ⟨others, apart⟩ := List.pairwise_cons.mp apart
    rw [Tally.count]
    split
    · exact List.pairwise_cons.mpr ⟨others, apart⟩
    · next other =>
      refine List.pairwise_cons.mpr ⟨fun d hd => ?_, ih apart⟩
      rcases mem_keys_count (List.mem_map_of_mem hd) with old | new
      · obtain ⟨e, he, same⟩ := List.mem_map.mp old
        rw [← same]
        exact others e he
      · rw [new]
        exact other

/-! ## Rows of keys -/

theorem counted_foldl (counts : List (Value × ℕ)) (keys : List Value) :
    counted (keys.foldl count counts) = counted counts + keys.length := by
  induction keys generalizing counts with
  | nil => rfl
  | cons key keys ih =>
    rw [List.foldl_cons, ih, counted_count, List.length_cons]
    omega

theorem mem_keys_foldl {k : Value} (h : k ∈ (keys.foldl count counts).map Prod.fst) :
    k ∈ counts.map Prod.fst ∨ k ∈ keys := by
  induction keys generalizing counts with
  | nil => exact Or.inl h
  | cons key keys ih =>
    obtain old | later := ih h
    · obtain old | new := mem_keys_count old
      · exact Or.inl old
      · exact Or.inr (List.mem_cons.mpr (Or.inl new))
    · exact Or.inr (List.mem_cons_of_mem _ later)

theorem discrete_foldl (discrete : ∀ key ∈ keys, key.Discrete) :
    ∀ c ∈ keys.foldl count [], c.1.Discrete := by
  intro c hc
  rcases mem_keys_foldl (List.mem_map_of_mem hc) with old | key
  · cases old
  · exact discrete _ key

theorem apart_foldl (keys : List Value) : Apart (keys.foldl count []) := by
  induction keys using List.reverseRecOn with
  | nil => exact List.Pairwise.nil
  | append_singleton keys key ih =>
    rw [List.foldl_append]
    exact ih.count key

theorem nodup_keys_foldl (discrete : ∀ key ∈ keys, key.Discrete) :
    ((keys.foldl count []).map Prod.fst).Nodup := by
  rw [List.Nodup, List.pairwise_map]
  refine (apart_foldl keys).imp_of_mem fun hc _ other same => other ?_
  exact ((discrete_foldl discrete _ hc).sameKey_iff _).mpr (congrArg Value.keyed? same)

/-- A key has the count of how often it was counted, or none if it never was. -/
theorem value?_foldl (discrete : ∀ key ∈ keys, key.Discrete) (k : Value) :
    value? (keys.foldl count []) k =
      if keys.countP (fun key => key.sameKey k) = 0 then none
      else some (keys.countP fun key => key.sameKey k) := by
  induction keys using List.reverseRecOn with
  | nil => rfl
  | append_singleton keys key ih =>
    rw [List.forall_mem_append, List.forall_mem_singleton] at discrete
    rw [List.foldl_append, List.foldl_cons, List.foldl_nil,
      value?_count (discrete_foldl discrete.1) discrete.2, ih discrete.1, List.countP_append,
      List.countP_singleton]
    by_cases same : key.sameKey k = true
    · simp only [same, if_true]
      split <;> simp_all
    · simp only [same, if_false, Bool.false_eq_true, Nat.add_zero]

theorem under_foldl (discrete : ∀ key ∈ keys, key.Discrete) (k : Value) :
    under (keys.foldl count []) k = keys.countP fun key => key.sameKey k := by
  rw [under_eq_value?, value?_foldl discrete]
  split
  · next none => exact none.symm
  · rfl

/-- The order in which keys are counted does not matter. -/
theorem value?_foldl_perm {keys' : List Value} (perm : keys'.Perm keys)
    (discrete : ∀ key ∈ keys, key.Discrete) (k : Value) :
    value? (keys'.foldl count []) k = value? (keys.foldl count []) k := by
  rw [value?_foldl discrete, value?_foldl fun key h => discrete key (perm.mem_iff.mp h),
    perm.countP_eq]

/-! ## Headings -/

/-- Findings under discrete headings are all counted. -/
theorem reasonsFrom_eq {findings : List Finding} (discrete : ∀ f ∈ findings, f.heading.Discrete)
    (counts : List (Value × ℕ)) :
    reasonsFrom counts findings = .ok ((findings.map Finding.heading).foldl count counts) := by
  induction findings generalizing counts with
  | nil => rfl
  | cons f findings ih =>
    rw [List.forall_mem_cons] at discrete
    rw [reasonsFrom, if_pos discrete.1.canBeKey, ih discrete.2]
    rfl

end Tally

end ProofGate
