import ProofGate.Tag
import Mathlib.Algebra.Ring.Int.Defs
import Mathlib.Tactic.Common

/-!
# Numbers and texts compared

Bounds are powers of two, values of one kind are equal if what they hold is, and of all numbers
two are tags.
-/

namespace ProofGate

theorem twoTo_cast (k : ℕ) : ((twoTo k : ℕ) : Int) = 2 ^ k := by
  show ((2 ^ k : ℕ) : Int) = 2 ^ k
  push_cast
  rfl

@[simp] theorem Value.sameKey_int (m n : Int) : (Value.int m).sameKey (.int n) = (m == n) := rfl

@[simp] theorem Value.sameKey_text (s t : Text) :
    (Value.text s).sameKey (.text t) = (s == t) := rfl

/-- A number is a double, or an integer or truth value with all its bits. -/
theorem Value.number_eq_some {v : Value} {x : Double} (h : v.number? = some x) :
    v = .float x ∨ ∃ n, v.count? = some n ∧ x = .exact n := by
  cases v
  case float y =>
    cases h
    exact Or.inl rfl
  case bool b =>
    cases h
    exact Or.inr ⟨_, rfl, rfl⟩
  case int n =>
    cases h
    exact Or.inr ⟨n, rfl, rfl⟩
  all_goals cases h

/-- Truth values, integers and texts. -/
def Value.Discrete : Value → Prop
  | .bool _ => True
  | .int _ => True
  | .text _ => True
  | _ => False

/-- What a value is as a key: a number or a text. -/
def Value.keyed? : Value → Option (ℤ ⊕ Text)
  | .text s => some (.inr s)
  | v => v.toInt?.map .inl

/-- A truth value or an integer is the key of its number. -/
theorem Value.sameKey_of_count {v : Value} {n : ℤ} (count : v.count? = some n) (k : Value) :
    v.sameKey k = (k.toInt? == some n) := by
  cases v <;> cases count <;> cases k with
  | bool | int => exact Bool.beq_comm
  | float x =>
    simp only [sameKey, toInt?, count?]
    cases x.toInt? with
    | none => rfl
    | some m => exact Bool.beq_comm
  | null | text | bytes | list | object => rfl

theorem Value.sameKey_text_left (s : Text) (k : Value) :
    (Value.text s).sameKey k = (k.text? == some s) := by
  cases k with
  | text t => exact Bool.beq_comm
  | null | bool | int | float | bytes | list | object => rfl

theorem Value.keyed_eq_number_iff {v : Value} {n : ℤ} :
    v.keyed? = some (.inl n) ↔ v.toInt? = some n := by
  cases v <;> simp [keyed?, toInt?, count?, Option.map_eq_some_iff]

theorem Value.keyed_eq_text_iff {v : Value} {s : Text} :
    v.keyed? = some (.inr s) ↔ v.text? = some s := by
  cases v <;> simp [keyed?, text?, Option.map_eq_some_iff]

theorem Value.Discrete.sameKey_iff {v : Value} (discrete : v.Discrete) (k : Value) :
    v.sameKey k = true ↔ v.keyed? = k.keyed? := by
  have number {n : ℤ} (count : v.count? = some n) (own : v.keyed? = some (.inl n)) :
      v.sameKey k = true ↔ v.keyed? = k.keyed? := by
    rw [sameKey_of_count count, beq_iff_eq, own, ← keyed_eq_number_iff]
    exact eq_comm
  cases v with
  | text s =>
    show _ ↔ some (.inr s) = k.keyed?
    rw [sameKey_text_left, beq_iff_eq, ← keyed_eq_text_iff]
    exact eq_comm
  | bool | int => exact number rfl rfl
  | null | float | bytes | list | object => cases discrete

theorem Value.Discrete.sameKey_comm {v : Value} (discrete : v.Discrete) (k : Value) :
    k.sameKey v = v.sameKey k := by
  cases v with
  | bool | int =>
    cases k with
    | bool | int => exact Bool.beq_comm
    | float x =>
      simp only [sameKey, toInt?, count?]
      cases x.toInt? with
      | none => rfl
      | some m => exact Bool.beq_comm
    | null | text | bytes | list | object => rfl
  | text s =>
    cases k with
    | text t => exact Bool.beq_comm
    | float x =>
      simp only [sameKey, toInt?, count?]
      cases x.toInt? <;> rfl
    | null | bool | int | bytes | list | object => rfl
  | null | float | bytes | list | object => cases discrete

theorem Value.discrete_of_count {v : Value} {n : ℤ} (count : v.count? = some n) : v.Discrete := by
  cases v with
  | bool | int => trivial
  | null | float | text | bytes | list | object => cases count

theorem Value.Discrete.canBeKey {v : Value} (discrete : v.Discrete) : v.canBeKey = true := by
  cases v with
  | bool | int | text => rfl
  | null | float | bytes | list | object => cases discrete

/-- Members under different names are put one behind the other. -/
theorem Value.foldl_put {done ms : List (Text × Value)} (distinct : ((done ++ ms).map Prod.fst).Nodup) :
    ms.foldl (fun done m => Value.put done m.1 m.2) done = done ++ ms := by
  induction ms generalizing done with
  | nil => exact (List.append_nil done).symm
  | cons m ms ih =>
    have fresh : (done.any fun d => d.1 == m.1) = false := by
      rw [List.any_eq_false]
      intro d hd same
      rw [List.map_append, List.nodup_append] at distinct
      exact distinct.2.2 d.1 (List.mem_map_of_mem hd) m.1 List.mem_cons_self (beq_iff_eq.mp same)
    have put : Value.put done m.1 m.2 = done ++ [m] := by
      rw [Value.put, fresh]
      rfl
    have along : done ++ m :: ms = done ++ [m] ++ ms := by
      rw [List.append_assoc, List.singleton_append]
    rw [List.foldl_cons, put, ih (along ▸ distinct), along]

theorem Tag.ofNumber_int (n : Int) :
    Tag.ofNumber? (.int n) = if n = 67 then some .nft else if n = 88 then some .erc20 else none := by
  show Tag.ofCode? n = _
  by_cases nft : n = 67
  · subst nft
    rfl
  · by_cases erc20 : n = 88
    · subst erc20
      rfl
    · simp [Tag.ofCode?, Tag.all, Tag.code, nft, erc20]

theorem Tag.ofNumber_eq_erc20 {n : Int} : Tag.ofNumber? (.int n) = some .erc20 ↔ n = 88 := by
  rw [Tag.ofNumber_int]
  split <;> simp_all

end ProofGate
