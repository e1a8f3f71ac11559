import ProofGate.Proofs.Command.Arguments
import Mathlib.Data.List.Basic

/-!
# Lines that verify

A command line that verifies a bundle: a level of the log or nothing, the name of the command, the
files that the bundle comes from, and the other arguments. What is made of the other arguments does
not depend on the files in front of them.
-/

namespace ProofGate

namespace CommandLine

open Options

/-- The name of the command that verifies a bundle. -/
def verifyName : Text := "verify-query"

def verifyGrammar : Grammar :=
  (commands.lookup verifyName).getD top

theorem lookup_verifyName : commands.lookup verifyName = some verifyGrammar := rfl

/-! ## Switches -/

theorem proper_top : top.Proper := by
  unfold Grammar.Proper
  decide

theorem proper_verifyGrammar : verifyGrammar.Proper := by
  unfold Grammar.Proper
  decide

theorem knows_level : top.Knows (text "--log-level") where
  dashed := rfl
  long := by decide
  free := by decide
  named _ := rfl

/-- The switches that name files to read. -/
def fileSwitches : List Text :=
  ["--proof", "--calldata", "--query"]

theorem knows_file {name : Text} (file : name ∈ fileSwitches) :
    verifyGrammar.Knows (text name) := by
  simp only [fileSwitches, List.mem_cons, List.not_mem_nil, or_false] at file
  rcases file with rfl | rfl | rfl
  all_goals exact ⟨rfl, by decide, by decide, fun _ => rfl⟩

/-- In front of the command's name a file would be no error yet. -/
theorem classify_file {name : Text} (file : name ∈ fileSwitches) (v : Text) :
    classify top name = .ok .unknown ∧ ∃ token, classify top (joined name v) = .ok token := by
  have free : equals ∉ name := (knows_file file).free
  have unnamed (written : Option Text) : named? top name written = none := by
    simp only [fileSwitches, List.mem_cons, List.not_mem_nil, or_false] at file
    rcases file with rfl | rfl | rfl <;> rfl
  refine ⟨?alone, classify_unknown ?_ (named?_joined proper_top name v) ?_⟩
  case alone =>
    simp only [fileSwitches, List.mem_cons, List.not_mem_nil, or_false] at file
    rcases file with rfl | rfl | rfl <;> rfl
  · intro written
    rw [splitJoined_joined free]
    exact unnamed written
  · simp only [fileSwitches, List.mem_cons, List.not_mem_nil, or_false] at file
    rcases file with rfl | rfl | rfl <;> exact stemmed_joined free v

theorem classifies_file {name v : Text} {args : List Text} (file : name ∈ fileSwitches)
    (gives : Gives name v args) : ∃ ts, Classifies top args ts := by
  obtain ⟨alone, token, together⟩ := classify_file file v
  cases gives with
  | apart plain =>
    have name := classifies_single (knows_file file).long alone
    exact ⟨_, name.append (classifies_single (ne_mark_of_plain plain) (classify_plain plain))⟩
  | together => exact ⟨_, classifies_single (joined_ne_mark name v) together⟩

/-! ## Lines -/

/-- What may stand in front of a command's name, and what it sets: nothing, or a level. -/
inductive Front : List Text → List (Text × Value) → Prop where
  | nothing : Front [] []
  | level {name : Text} {args : List Text} : Gives "--log-level" name args →
      Front args [("--log-level", .text name)]

theorem Front.sets {front : List Text} {base : List (Text × Value)} (h : Front front base) :
    Sets top front base := by
  cases h with
  | nothing => exact sets_nil top
  | level gives => exact gives.sets (w := text "--log-level") proper_top knows_level rfl

/-- A line is read by the grammar of its command, once its arguments are no error in front of it. -/
theorem parse_verify {front : List Text} {base : List (Text × Value)} (before : Front front base)
    (args : List Text) :
    parse (front ++ verifyName :: args) = (do
      let _ ← classifyAll top args
      let sheet ← Options.read verifyGrammar args
      if sheet.stray then throw .usage
      pure (Command.given ((⟨base, false⟩ : Sheet).text? "--log-level"),
        .verify (order sheet))) := by
  obtain ⟨tokens, classified, used⟩ := before.sets
  have named : classifyAll top (verifyName :: args) =
      (classifyAll top args).map ((verifyName, .plain) :: ·) := by
    rw [classifyAll_cons (by decide), classify_plain (by decide)]
    cases classifyAll top args <;> rfl
  rw [parse, readWithCommand, classified, named]
  cases known : classifyAll top args with
  | error r => rfl
  | ok ts =>
    have rest : use top true ((verifyName, .plain) :: ts) ⟨base, false⟩ =
        .ok (⟨base, false⟩, verifyName :: args) := by
      rw [← fst_of_classifyAll known]
      rfl
    simp only [map_ok, ok_bind, used, rest, lookup_verifyName]
    cases Options.read verifyGrammar args with
    | error r => rfl
    | ok sheet =>
      simp only [ok_bind, Bool.false_or]
      cases sheet.stray <;> rfl

/-! ## Orders -/

/-- The files named first are all that an order has of them; the rest comes from other arguments. -/
theorem order_over {s : Sheet} (spared : ∀ name ∈ fileSwitches, s.find? name = none)
    {base : List (Text × Value)} (files : ∀ m ∈ base, m.1 ∈ fileSwitches) :
    order (s.over base) =
      { order s with
        source := source ⟨base, false⟩
        queryFile := (⟨base, false⟩ : Sheet).text? "--query" } := by
  have moved (name : Text) (file : name ∈ fileSwitches) :
      (s.over base).find? name = (⟨base, false⟩ : Sheet).find? name := by
    rw [Sheet.find?_over, spared name file]
    rfl
  have kept (name : Text) (other : name ∉ fileSwitches) :
      (s.over base).find? name = s.find? name := by
    have absent : base.lookup name = none := by
      rw [List.lookup_eq_none_iff]
      intro m hm
      rw [bne_iff_ne]
      rintro rfl
      exact other (files m hm)
    rw [Sheet.find?_over, absent, Option.or_none]
  have members : members (s.over base) = members s := by
    have others : ∀ w ∈ memberSwitches, w.1.name ∉ fileSwitches := by decide
    apply List.filterMap_congr
    rintro ⟨w, name⟩ hw
    show ((s.over base).find? w.name).map _ = (s.find? w.name).map _
    rw [kept _ (others _ hw)]
  unfold order
  simp only [source, Sheet.text?, Sheet.value, members, moved "--calldata" (by decide),
    moved "--proof" (by decide), moved "--query" (by decide), kept "--chain-id" (by decide),
    kept "--circuit-digest" (by decide), kept "--verifier" (by decide),
    kept "--output" (by decide)]

theorem complete_over {base : List (Text × Value)} {name : Text}
    (source : name ∈ verifyGrammar.oneOf)
    (given : (base.lookup name).isSome = true) (s : Sheet) :
    complete verifyGrammar (s.over base) = true := by
  have found : ((s.over base).find? name).isSome = true := by
    rw [Sheet.find?_over, Option.isSome_or, given, Bool.or_true]
  have some : (verifyGrammar.oneOf.any fun n => ((s.over base).find? n).isSome) = true :=
    List.any_eq_true.mpr ⟨name, source, found⟩
  have needs : verifyGrammar.required = [] := rfl
  rw [complete, some, needs, Bool.or_true]
  rfl

/-- The order of arguments without files, and a level set in front of them. -/
def orderOf (level : List (Text × Value)) (rest : List Text) :
    Except Refusal (Option Text × Order) := do
  let _ ← classifyAll top rest
  let ts ← classifyAll verifyGrammar rest
  let r ← use verifyGrammar false ts Sheet.blank
  if r.1.stray then throw .usage
  pure (Command.given ((⟨level, false⟩ : Sheet).text? "--log-level"), order r.1)

/-- A line that names files first gives the order of the other arguments with these files in it. -/
theorem parse_files {front : List Text} {level : List (Text × Value)} (before : Front front level)
    {files : List Text} {base : List (Text × Value)} (sets : Sets verifyGrammar files base)
    (classified : ∃ ts, Classifies top files ts) (named : ∀ m ∈ base, m.1 ∈ fileSwitches)
    (name : Text) (source : name ∈ verifyGrammar.oneOf)
    (given : (base.lookup name).isSome = true) {rest : List Text}
    (spared : ∀ ts, classifyAll verifyGrammar rest = .ok ts → Spares fileSwitches ts) :
    parse (front ++ verifyName :: (files ++ rest)) =
      (orderOf level rest).map fun x => (x.1, .verify { x.2 with
        source := CommandLine.source ⟨base, false⟩
        queryFile := (⟨base, false⟩ : Sheet).text? "--query" }) := by
  obtain ⟨front', classified⟩ := classified
  have free : ∀ ts, classifyAll verifyGrammar rest = .ok ts → Spares verifyGrammar.oneOf ts := by
    intro ts read arg w joined inside group
    have part : ∀ name ∈ verifyGrammar.oneOf, name ∈ fileSwitches := by decide
    exact spared ts read arg w joined inside (part w.name group)
  rw [parse_verify before, sets.read (complete_over source given) free, classified, orderOf]
  cases classifyAll top rest with
  | error r => rfl
  | ok others =>
    rw [map_ok, ok_bind, ok_bind]
    cases read : classifyAll verifyGrammar rest with
    | error r => rfl
    | ok ts =>
      rw [ok_bind, ok_bind]
      cases used : use verifyGrammar false ts Sheet.blank with
      | error r => rfl
      | ok r =>
        obtain ⟨s, left⟩ := r
        have absent : ∀ name ∈ fileSwitches, s.find? name = none := fun name file =>
          find?_of_use (spared ts read) used file
        have strays : (s.over base).stray = s.stray := rfl
        simp only [ok_bind, pure, Except.pure]
        rw [order_over absent named, strays]
        cases s.stray <;> rfl

end CommandLine

end ProofGate
