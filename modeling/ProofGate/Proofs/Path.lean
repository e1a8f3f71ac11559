import Mathlib.Logic.Relation
import ProofGate.Path

/-!
# Normal paths

The parts of a path from the root on can be shortened: a blank part and a single dot are left out,
a double dot is left out with the name before it, and at the root, which is its own parent, alone.
However a path is shortened, the path of names it ends in is the one that climbing finds.
-/

namespace ProofGate.Path

/-- Leaves out one part that leads nowhere, or a name that is left again at once. -/
inductive Shortens : List Text → List Text → Prop
  | blank (front back : List Text) : Shortens (front ++ [] :: back) (front ++ back)
  | dot (front back : List Text) : Shortens (front ++ ("." : Text) :: back) (front ++ back)
  | up (front : List Text) (name : Text) (back : List Text) (named : isName name = true) :
      Shortens (front ++ name :: (".." : Text) :: back) (front ++ back)
  | top (back : List Text) : Shortens ((".." : Text) :: back) back

/-- Parts that are all names. -/
def Normal (parts : List Text) : Prop :=
  ∀ part ∈ parts, isName part = true

instance (parts : List Text) : Decidable (Normal parts) :=
  inferInstanceAs (Decidable (∀ part ∈ parts, isName part = true))

/-- A normal path that other parts are shortened to. -/
structure Normalizes (parts path : List Text) : Prop where
  shortened : Relation.ReflTransGen Shortens parts path
  normal : Normal path

/-- All parts, from the root on, of a text that is taken for a path below a place. -/
def joined (here : List Text) (t : Text) : List Text :=
  if t.head? = some slash then t.split slash else here ++ t.split slash

/-! ## Names -/

theorem isName_iff {part : Text} :
    isName part = true ↔ part ≠ [] ∧ part ≠ "." ∧ part ≠ ".." ∧ slash ∉ part := by
  simp [isName, and_assoc]

theorem normal_append {front back : List Text} :
    Normal (front ++ back) ↔ Normal front ∧ Normal back :=
  List.forall_mem_append

theorem normal_concat {front : List Text} {part : Text} :
    Normal (front ++ [part]) ↔ Normal front ∧ isName part = true := by
  rw [normal_append, Normal, Normal, List.forall_mem_singleton]

/-! ## Climbing -/

/-- The parts that climbing looks at. -/
def steps (parts : List Text) : List Text :=
  parts.filter fun p => p != [] && p != "."

@[simp] theorem steps_append (front back : List Text) :
    steps (front ++ back) = steps front ++ steps back :=
  List.filter_append ..

@[simp] theorem steps_blank (parts : List Text) : steps ([] :: parts) = steps parts := rfl

@[simp] theorem steps_dot (parts : List Text) : steps (("." : Text) :: parts) = steps parts := rfl

@[simp] theorem steps_up (parts : List Text) : steps ((".." : Text) :: parts) = (".." : Text) :: steps parts := rfl

theorem steps_cons {part : Text} (full : part ≠ []) (moves : part ≠ ".") (parts : List Text) :
    steps (part :: parts) = part :: steps parts := by
  simp [steps, full, moves]

theorem steps_normal {path : List Text} (normal : Normal path) : steps path = path := by
  refine List.filter_eq_self.mpr fun part inside => ?_
  obtain ⟨full, moves, -⟩ := isName_iff.mp (normal part inside)
  simp [full, moves]

theorem climb_append (here front back : List Text) :
    climb here (front ++ back) = climb (climb here front) back := by
  induction front generalizing here with
  | nil => rfl
  | cons part front ih => exact ih _

theorem climb_up (here back : List Text) : climb here ((".." : Text) :: back) = climb here.dropLast back :=
  rfl

theorem climb_cons {part : Text} (h : part ≠ "..") (here back : List Text) :
    climb here (part :: back) = climb (here ++ [part]) back := by
  rw [climb, if_neg h]

theorem climb_normal {path : List Text} (normal : Normal path) (here : List Text) :
    climb here path = here ++ path := by
  induction path generalizing here with
  | nil => exact (List.append_nil here).symm
  | cons part path ih =>
    obtain ⟨named, rest⟩ := List.forall_mem_cons.mp normal
    rw [climb_cons (isName_iff.mp named).2.2.1, ih rest, List.append_assoc, List.singleton_append]

/-- Climbing ends in the same place before and after a shortening. -/
theorem climb_shortens {parts parts' : List Text} (h : Shortens parts parts') :
    climb [] (steps parts) = climb [] (steps parts') := by
  cases h with
  | blank front back => simp
  | dot front back => simp
  | top back => simp [climb_up]
  | up front name back named =>
    obtain ⟨full, moves, down, -⟩ := isName_iff.mp named
    rw [steps_append, steps_append, steps_cons full moves, steps_up, climb_append, climb_append,
      climb_cons down, climb_up, List.dropLast_concat]

/-- Climbing from a normal place shortens the way there and on. -/
theorem normalizes_climb {here parts : List Text} (normal : Normal here)
    (cut : ∀ part ∈ parts, slash ∉ part) : Normalizes (here ++ parts) (climb here (steps parts)) := by
  induction parts generalizing here with
  | nil => exact ⟨by simpa [steps, climb] using Relation.ReflTransGen.refl, normal⟩
  | cons part parts ih =>
    obtain ⟨whole, rest⟩ := List.forall_mem_cons.mp cut
    by_cases blank : part = []
    · subst blank
      obtain ⟨shortened, last⟩ := ih normal rest
      exact ⟨.head (.blank here parts) shortened, last⟩
    by_cases dot : part = "."
    · subst dot
      obtain ⟨shortened, last⟩ := ih normal rest
      exact ⟨.head (.dot here parts) shortened, last⟩
    by_cases up : part = ".."
    · subst up
      rw [steps_up, climb_up]
      -- at the root a double dot goes alone, elsewhere it takes the last name with it
      rcases List.eq_nil_or_concat here with rfl | ⟨front, name, rfl⟩
      · obtain ⟨shortened, last⟩ := ih normal rest
        exact ⟨.head (.top parts) shortened, last⟩
      · rw [List.concat_eq_append] at normal ⊢
        obtain ⟨before, named⟩ := normal_concat.mp normal
        obtain ⟨shortened, last⟩ := ih before rest
        rw [List.dropLast_concat, List.append_assoc, List.singleton_append]
        exact ⟨.head (.up front name parts named) shortened, last⟩
    · have named : isName part = true := isName_iff.mpr ⟨blank, dot, up, whole⟩
      have further := ih (normal_concat.mpr ⟨normal, named⟩) rest
      rwa [steps_cons blank dot, climb_cons up, ← List.append_cons] at *

theorem climb_shortened {parts parts' : List Text}
    (h : Relation.ReflTransGen Shortens parts parts') :
    climb [] (steps parts) = climb [] (steps parts') := by
  induction h with
  | refl => rfl
  | tail _ last ih => exact ih.trans (climb_shortens last)

/-- **The normal path** that parts are shortened to is what climbing from the root finds. -/
theorem normalizes_iff {parts path : List Text} (cut : ∀ part ∈ parts, slash ∉ part) :
    Normalizes parts path ↔ path = climb [] (steps parts) := by
  constructor
  · rintro ⟨shortened, normal⟩
    rw [climb_shortened shortened, steps_normal normal, climb_normal normal, List.nil_append]
  · rintro rfl
    have start : Normal [] := fun _ inside => nomatch inside
    exact normalizes_climb start cut

/-! ## Texts -/

/-- The pieces of a text are made of its points other than those it is split at. -/
theorem mem_of_mem_split {separator : Point} {t : Text} : ∀ piece ∈ Text.split separator t,
    ∀ p ∈ piece, p ∈ t ∧ p ≠ separator := by
  induction t with
  | nil => simp [Text.split]
  | cons q t ih =>
    rw [Text.split]
    split
    · rw [List.forall_mem_cons]
      exact ⟨nofun, fun piece later p h => (ih piece later p h).imp_left (List.mem_cons_of_mem q)⟩
    · next other =>
      have first : q ∈ q :: t ∧ q ≠ separator := ⟨List.mem_cons_self .., other⟩
      revert ih
      cases Text.split separator t with
      | nil => simpa using other
      | cons piece pieces =>
        simp only [List.forall_mem_cons]
        rintro ⟨head, tail⟩
        exact ⟨⟨first, fun p h => (head p h).imp_left (List.mem_cons_of_mem q)⟩,
          fun piece later p h => (tail piece later p h).imp_left (List.mem_cons_of_mem q)⟩

theorem cut_joined {here : List Text} (normal : Normal here) (t : Text) :
    ∀ part ∈ joined here t, slash ∉ part := by
  have pieces : ∀ part ∈ t.split slash, slash ∉ part := fun part inside h =>
    (mem_of_mem_split part inside slash h).2 rfl
  rw [joined]
  split
  · exact pieces
  · exact List.forall_mem_append.mpr
      ⟨fun part inside => (isName_iff.mp (normal part inside)).2.2.2, pieces⟩

theorem absolute_ofText (t : Text) : (ofText t).absolute = decide (t.head? = some slash) := by
  cases t with
  | nil => rfl
  | cons p t =>
    by_cases h : p = slash
    · subst h
      simp only [absolute, ofText, List.takeWhile_cons, BEq.rfl, if_true, List.length_cons]
      split <;> simp
    · simp [ofText, absolute, h]

theorem resolve_ofText {here : List Text} (normal : Normal here) (t : Text) :
    (ofText t).resolve here = climb [] (steps (joined here t)) := by
  rw [resolve, absolute_ofText, joined]
  by_cases h : t.head? = some slash
  · simp only [h, decide_true, if_true]
    rfl
  · simp only [h, decide_false, if_false, Bool.false_eq_true]
    rw [steps_append, climb_append, steps_normal normal, climb_normal normal, List.nil_append]
    rfl

/-- Following a path from a normal place finds the normal form of both together. -/
theorem normalizes_joined_iff {here : List Text} (normal : Normal here) {t : Text} {path : List Text} :
    Normalizes (joined here t) path ↔ path = (ofText t).resolve here := by
  rw [normalizes_iff (cut_joined normal t), resolve_ofText normal]

end ProofGate.Path
