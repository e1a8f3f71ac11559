import ProofGate.Command.Line
import ProofGate.Proofs.Run
import Mathlib.Data.List.TakeWhile
import Mathlib.Tactic.Common

/-!
# Arguments

Arguments are read one after the other. What was given by those in front counts for those behind in
one way only: of a group of switches no two may be given. A switch outside the groups is therefore
read the same whatever stands in front of it, which is what lets two command lines with different
beginnings be compared.
-/

namespace ProofGate

namespace Options

/-! ## Sheets over others -/

/-- A sheet with older values below its own. -/
def Sheet.over (s : Sheet) (base : List (Text × Value)) : Sheet :=
  ⟨s.values ++ base, s.stray⟩

theorem Sheet.find?_over (s : Sheet) (base : List (Text × Value)) (name : Text) :
    (s.over base).find? name = (s.find? name).or (base.lookup name) :=
  List.lookup_append

/-- None of the arguments is read as a switch of these names. -/
def Spares (names : List Text) (ts : List (Text × Token)) : Prop :=
  ∀ arg w joined, (arg, Token.switch w joined) ∈ ts → w.name ∉ names

theorem Spares.of_cons {names : List Text} {t : Text × Token} {ts : List (Text × Token)}
    (spares : Spares names (t :: ts)) : Spares names ts :=
  fun arg w joined h => spares arg w joined (List.mem_cons_of_mem _ h)

theorem Spares.head {names : List Text} {arg : Text} {w : Switch} {joined : Option Text}
    {ts : List (Text × Token)} (spares : Spares names ((arg, .switch w joined) :: ts)) :
    w.name ∉ names :=
  spares arg w joined List.mem_cons_self

variable {g : Grammar}

/-- A switch of no group takes its value whatever was given before. -/
theorem store_over {w : Switch} (free : w.name ∉ g.oneOf) (s : Sheet) (base : List (Text × Value))
    (written : Text) :
    store g (s.over base) w written = (store g s w written).map (·.over base) := by
  have alone : g.oneOf.contains w.name = false := by
    rw [List.contains_eq_mem, decide_eq_false_iff_not]
    exact free
  rw [store, store]
  cases valueOf w written with
  | error r => rfl
  | ok v =>
    simp only [ok_bind, alone, Bool.false_and]
    rfl

/-- **Frame.** Arguments that touch no group are used the same over any older values. -/
theorem use_over {ts : List (Text × Token)} (free : Spares g.oneOf ts) (commands : Bool) (s : Sheet)
    (base : List (Text × Value)) :
    use g commands ts (s.over base) =
      (use g commands ts s).map fun r => (r.1.over base, r.2) := by
  induction ts, s using use.induct commands with
  | case1 s => rfl
  | case2 arg fit rest s => rfl
  | case3 arg w v rest s ih =>
    rw [use, use, store_over free.head]
    cases store g s w v with
    | error r => rfl
    | ok s' => exact ih s' free.of_cons
  | case4 arg w v rest s ih =>
    rw [use, use, store_over free.head]
    cases store g s w v with
    | error r => rfl
    | ok s' => exact ih s' free.of_cons.of_cons
  | case5 arg w rest s alone =>
    rw [use, use]
    rfl
    all_goals exact alone
  | case6 arg rest s ih =>
    rw [use, use]
    exact ih free.of_cons
  | case7 arg t rest s help joined apart single unknown on =>
    rw [use, use, if_pos on, if_pos on]
    rfl
    all_goals assumption
  | case8 arg t rest s help joined apart single unknown off ih =>
    rw [use, use, if_neg off, if_neg off]
    exact ih free.of_cons
    all_goals assumption

theorem find?_of_store {w : Switch} {s s' : Sheet} {written name : Text}
    (stored : store g s w written = .ok s') (other : name ≠ w.name) :
    s'.find? name = s.find? name := by
  obtain ⟨v, _, stored⟩ := bind_eq_ok.mp stored
  have differs : (name == w.name) = false := beq_eq_false_iff_ne.mpr other
  split at stored
  · cases stored
  · cases stored
    show ((w.name, v) :: s.values).lookup name = s.values.lookup name
    rw [List.lookup_cons, differs]

/-- Switches that no argument is read as keep what they were given before. -/
theorem find?_of_use {names : List Text} {ts : List (Text × Token)} (spares : Spares names ts)
    {commands : Bool} {s s' : Sheet} {rest : List Text}
    (used : use g commands ts s = .ok (s', rest))
    {name : Text} (spared : name ∈ names) : s'.find? name = s.find? name := by
  have other {w : Switch} (h : w.name ∉ names) : name ≠ w.name := by
    rintro rfl
    exact h spared
  induction ts, s using use.induct commands with
  | case1 s =>
    cases used
    rfl
  | case2 arg fit rest s => cases used
  | case3 arg w v rest s ih =>
    obtain ⟨between, stored, used⟩ := bind_eq_ok.mp used
    rw [ih between spares.of_cons used, find?_of_store stored (other spares.head)]
  | case4 arg w v rest s ih =>
    obtain ⟨between, stored, used⟩ := bind_eq_ok.mp used
    rw [ih between spares.of_cons.of_cons used, find?_of_store stored (other spares.head)]
  | case5 arg w rest s alone =>
    rw [use] at used
    cases used
    exact alone
  | case6 arg rest s ih => exact ih spares.of_cons used
  | case7 arg t rest s help joined apart single unknown on =>
    rw [use, if_pos on] at used
    cases used
    rfl
    all_goals assumption
  | case8 arg t rest s help joined apart single unknown off ih =>
    rw [use, if_neg off] at used
    exact ih spares.of_cons used
    all_goals assumption

/-! ## Classification -/

theorem classifyAll_cons {arg : Text} (other : arg ≠ mark) (rest : List Text) :
    classifyAll g (arg :: rest) = (do
      let t ← classify g arg
      let ts ← classifyAll g rest
      pure ((arg, t) :: ts)) := by
  rw [classifyAll, if_neg other]

/-- Classification keeps the arguments. -/
theorem fst_of_classifyAll {args : List Text} {ts : List (Text × Token)}
    (read : classifyAll g args = .ok ts) : ts.map Prod.fst = args := by
  induction args generalizing ts with
  | nil =>
    cases read
    rfl
  | cons arg rest ih =>
    by_cases last : arg = mark
    · rw [classifyAll, if_pos last] at read
      cases read
      simp [Function.comp_def]
    · rw [classifyAll_cons last] at read
      obtain ⟨t, _, read⟩ := bind_eq_ok.mp read
      obtain ⟨ts', behind, read⟩ := bind_eq_ok.mp read
      cases read
      rw [List.map_cons, ih behind]

/-- Arguments that are classified in this way whatever stands behind them. -/
def Classifies (g : Grammar) (args : List Text) (ts : List (Text × Token)) : Prop :=
  ∀ rest, classifyAll g (args ++ rest) = (classifyAll g rest).map (ts ++ ·)

theorem classifies_nil (g : Grammar) : Classifies g [] [] := by
  intro rest
  rw [List.nil_append]
  cases classifyAll g rest <;> rfl

theorem classifies_single {arg : Text} (other : arg ≠ mark) {t : Token}
    (known : classify g arg = .ok t) : Classifies g [arg] [(arg, t)] := by
  intro rest
  rw [List.singleton_append, classifyAll_cons other, known]
  cases classifyAll g rest <;> rfl

theorem Classifies.append {args more : List Text} {ts us : List (Text × Token)}
    (first : Classifies g args ts) (second : Classifies g more us) :
    Classifies g (args ++ more) (ts ++ us) := by
  intro rest
  rw [List.append_assoc, first, second]
  cases classifyAll g rest with
  | error r => rfl
  | ok vs => simp

theorem classify_plain {v : Text} (plain : v.head? ≠ some dash) : classify g v = .ok .plain :=
  if_pos plain

def equals : Point := .char '='

/-- A switch with its value in the same argument. -/
def joined (name v : Text) : Text :=
  name ++ equals :: v

theorem splitJoined_joined {name : Text} (free : equals ∉ name) (v : Text) :
    splitJoined (joined name v) = (name, some v) := by
  have front : ∀ p ∈ name, (!(p == Point.char '=')) = true := by
    intro p hp
    rw [Bool.not_eq_true', beq_eq_false_iff_ne]
    rintro rfl
    exact free hp
  have before : (joined name v).takeWhile (fun p => !(p == Point.char '=')) = name := by
    rw [joined, List.takeWhile_append_of_pos front]
    exact List.append_nil name
  have behind : (joined name v).dropWhile (fun p => !(p == Point.char '=')) = equals :: v := by
    rw [joined, List.dropWhile_append_of_pos front]
    rfl
  unfold splitJoined
  dsimp only
  rw [before, behind]

/-- No switch is named with an equals sign. -/
def Grammar.Proper (g : Grammar) : Prop :=
  ∀ w ∈ g.switches, equals ∉ w.name

theorem named?_joined (proper : g.Proper) (name v : Text) :
    named? g (joined name v) none = none := by
  have inside : equals ∈ joined name v := List.mem_append_right _ List.mem_cons_self
  have other {t : Text} (free : equals ∉ t) : joined name v ≠ t := by
    rintro rfl
    exact free inside
  have unknown : g.switches.find? (·.name == joined name v) = none := by
    rw [List.find?_eq_none]
    intro w hw same
    exact other (proper w hw) (beq_iff_eq.mp same).symm
  rw [named?, if_neg (other (by decide)), if_neg (other (by decide)), unknown]
  rfl

/-- A switch is known by its name in front of an equals sign. -/
theorem classify_joined (proper : g.Proper) {name : Text} (free : equals ∉ name)
    (dashed : name.head? = some dash) {v : Text} {t : Token}
    (known : named? g name (some v) = some t) : classify g (joined name v) = .ok t := by
  obtain ⟨p, rest, rfl⟩ : ∃ p rest, name = p :: rest := by
    cases name with
    | nil => cases dashed
    | cons p rest => exact ⟨p, rest, rfl⟩
  have front : (joined (p :: rest) v).head? = some dash := dashed
  have more : joined (p :: rest) v ≠ [dash] := by
    intro same
    have short := congrArg List.length same
    simp [joined] at short
  unfold classify
  rw [if_neg (not_not_intro front), splitJoined_joined free]
  simp only [named?_joined proper, if_neg more, Option.isSome_some, if_true, known]

/-- In front of an equals sign a name may be cut like one that stands alone. -/
theorem stemmed_joined {rest : Text} (free : equals ∉ dash :: dash :: rest) (v : Text) :
    stemmed g (joined (dash :: dash :: rest) v) =
      (if (dash :: dash :: rest).isPrefixOf "--help" then [Token.help false] else []) ++
        (g.switches.filter fun s => (dash :: dash :: rest).isPrefixOf s.name).map
          fun s => .switch s (some v) := by
  have split := splitJoined_joined free v
  have shape : joined (dash :: dash :: rest) v =
      .char '-' :: .char '-' :: (rest ++ equals :: v) := rfl
  rw [shape] at split ⊢
  rw [stemmed, split]
  rfl

/-- What is neither a switch nor cut from one is no error. -/
theorem classify_unknown {t : Text} (unnamed : ∀ written, named? g (splitJoined t).1 written = none)
    (alone : named? g t none = none) (unstemmed : stemmed g t = []) :
    ∃ token, classify g t = .ok token := by
  unfold classify
  split
  · exact ⟨.plain, rfl⟩
  · simp only [alone, unnamed, unstemmed, ite_self]
    split
    · exact ⟨.plain, rfl⟩
    · exact ⟨_, rfl⟩

/-! ## Values given -/

/-- Arguments that give a switch its value: behind the name, or in the same argument. -/
inductive Gives (name v : Text) : List Text → Prop where
  | apart : v.head? ≠ some dash → Gives name v [name, v]
  | together : v ≠ mark → Gives name v [joined name v]

/-- A switch whose name is written with two dashes and asks for no help. -/
structure Grammar.Knows (g : Grammar) (w : Switch) : Prop where
  dashed : w.name.head? = some dash
  long : w.name ≠ mark
  free : equals ∉ w.name
  named : ∀ written, named? g w.name written = some (.switch w written)

theorem ne_mark_of_plain {v : Text} (plain : v.head? ≠ some dash) : v ≠ mark := by
  rintro rfl
  exact plain rfl

theorem joined_ne_mark (name v : Text) : joined name v ≠ mark := by
  intro same
  have inside : equals ∈ mark := same ▸ List.mem_append_right _ List.mem_cons_self
  exact absurd inside (by decide)

theorem Grammar.Knows.classify {w : Switch} (knows : g.Knows w) :
    classify g w.name = .ok (.switch w none) := by
  unfold Options.classify
  rw [if_neg (not_not_intro knows.dashed)]
  simp only [knows.named]

/-- A command line takes a text for a switch as the arguments behind would: whatever they are, the
switch is used first. -/
theorem Gives.read (proper : g.Proper) {w : Switch} (knows : g.Knows w) {v : Text}
    {args : List Text} (gives : Gives w.name v args) :
    ∃ front, Classifies g args front ∧
      ∀ commands ts s, use g commands (front ++ ts) s = store g s w v >>= use g commands ts := by
  cases gives with
  | apart plain =>
    have name := classifies_single knows.long knows.classify
    have value := classifies_single (ne_mark_of_plain plain) (classify_plain (g := g) plain)
    refine ⟨_, name.append value, ?_⟩
    intro commands ts s
    rw [List.singleton_append, List.cons_append, List.singleton_append, use]
  | together other =>
    have known := classify_joined proper knows.free knows.dashed (knows.named (some v))
    refine ⟨_, classifies_single (joined_ne_mark w.name v) known, ?_⟩
    intro commands ts s
    rw [List.singleton_append, use]

theorem Gives.valueOf {w : Switch} (textual : w.isNumber = false) {name v : Text} {args : List Text}
    (gives : Gives name v args) : valueOf w v = .ok (.text v) := by
  have other : v ≠ mark := by
    cases gives with
    | apart plain => exact ne_mark_of_plain plain
    | together other => exact other
  rw [Options.valueOf, if_neg other, textual]
  rfl

/-- Arguments that leave these values behind, whatever follows them. -/
def Sets (g : Grammar) (args : List Text) (base : List (Text × Value)) : Prop :=
  ∃ front, Classifies g args front ∧
    ∀ commands ts, use g commands (front ++ ts) Sheet.blank = use g commands ts ⟨base, false⟩

theorem sets_nil (g : Grammar) : Sets g [] [] :=
  ⟨[], classifies_nil g, fun _ _ => rfl⟩

/-- The first value is taken even by a switch of a group. -/
theorem Gives.sets (proper : g.Proper) {w : Switch} (knows : g.Knows w)
    (textual : w.isNumber = false) {v : Text} {args : List Text} (gives : Gives w.name v args) :
    Sets g args [(w.name, .text v)] := by
  obtain ⟨front, classified, used⟩ := gives.read proper knows
  have alone : (g.oneOf.any fun n => n != w.name && (Sheet.blank.find? n).isSome) = false := by
    rw [List.any_eq_false]
    intro n _
    simp [Sheet.find?, Sheet.blank]
  have stored : store g Sheet.blank w v = .ok ⟨[(w.name, .text v)], false⟩ := by
    rw [store, gives.valueOf textual, ok_bind, alone, Bool.and_false]
    rfl
  refine ⟨front, classified, fun commands ts => ?_⟩
  rw [used, stored, ok_bind]

/-- A switch of no group is given behind others. -/
theorem Sets.give (proper : g.Proper) {args : List Text} {base : List (Text × Value)}
    (sets : Sets g args base) {w : Switch} (knows : g.Knows w) (textual : w.isNumber = false)
    (free : w.name ∉ g.oneOf) {v : Text} {more : List Text} (gives : Gives w.name v more) :
    Sets g (args ++ more) ((w.name, .text v) :: base) := by
  obtain ⟨front, classified, used⟩ := sets
  obtain ⟨back, classifiedMore, usedMore⟩ := gives.read proper knows
  have stored : store g ⟨base, false⟩ w v = .ok ⟨(w.name, .text v) :: base, false⟩ := by
    rw [store, gives.valueOf textual, ok_bind, List.contains_eq_mem, decide_eq_false free,
      Bool.false_and]
    rfl
  refine ⟨front ++ back, classified.append classifiedMore, fun commands ts => ?_⟩
  rw [List.append_assoc, used, usedMore, stored, ok_bind]

/-- Behind values that complete it a command reads the other arguments by themselves, as long as
they touch no group. -/
theorem Sets.read {args : List Text} {base : List (Text × Value)} (sets : Sets g args base)
    (whole : ∀ s : Sheet, complete g (s.over base) = true) {rest : List Text}
    (free : ∀ ts, classifyAll g rest = .ok ts → Spares g.oneOf ts) :
    Options.read g (args ++ rest) = (do
      let ts ← classifyAll g rest
      let r ← use g false ts Sheet.blank
      pure (r.1.over base)) := by
  obtain ⟨front, classified, used⟩ := sets
  rw [Options.read, classified]
  cases tokens : classifyAll g rest with
  | error r => rfl
  | ok ts =>
    have base : (⟨base, false⟩ : Sheet) = Sheet.blank.over base := rfl
    rw [map_ok, ok_bind, ok_bind, used, base, use_over (free ts tokens)]
    cases use g false ts Sheet.blank with
    | error r => rfl
    | ok r =>
      simp only [map_ok, ok_bind, whole, if_true]

end Options

end ProofGate
