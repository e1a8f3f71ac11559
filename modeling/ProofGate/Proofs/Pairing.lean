import ProofGate.Pairing
import ProofGate.Proofs.Address
import ProofGate.Proofs.Backoff

/-!
# Verdicts of a verifying contract

Whatever the contract answers, its first answer that is not lost on the way decides: a revert is a
rejection, and no rejection is asked about again. Only calls that did not get through are repeated,
and if none does the verifier counts as unreachable. A contract that cannot be opened is never
called, and accepts nothing.
-/

namespace ProofGate

/-! ## Kinds of failure -/

namespace Kind

/-- A revert is no failure of the system. -/
theorem not_reverted_of_system {k : Kind} (h : k.isA .system = true) :
    k.isA .reverted = false ∧ k.isA .customRevert = false := by
  cases k with
  | mismatch f => cases f <;> revert h <;> decide
  | _ => revert h; decide

/-- All kinds that are worth a repetition are transient ones or of the system. -/
theorem standard_iff {k : Kind} :
    Backoff.standardKinds.any k.isA = true ↔ k.isA .transient = true ∨ k.isA .system = true := by
  cases k with
  | mismatch f => cases f <;> decide
  | _ => decide

end Kind

namespace Pairing

variable {σ : Type}

/-! ## Answers of the contract -/

/-- What an answer of the contract says about the proof. -/
inductive Verdict : Except Failure Unit → Except Failure Unit → Prop
  /-- A call that returns accepts. -/
  | accepts : Verdict (.ok ()) (.ok ())
  /-- A custom revert whose data begin with the selector for inputs rejects an input. -/
  | input {e : Failure} {rest : Bytes} (custom : e.isA .customRevert = true)
      (data : Word.looseBytes (revertData e) = .ok (fieldSelector ++ rest)) :
      Verdict (.error e) (.error .inputRefused)
  /-- Any other custom revert rejects the proof, whatever its data are, if it has any. -/
  | proof {e : Failure} (custom : e.isA .customRevert = true)
      (data : ∀ rest, Word.looseBytes (revertData e) ≠ .ok (fieldSelector ++ rest)) :
      Verdict (.error e) (.error .proofRefused)
  /-- So does a plain revert. -/
  | reverted {e : Failure} (plain : e.isA .reverted = true)
      (custom : e.isA .customRevert = false) : Verdict (.error e) (.error (.proofReverted e))
  /-- All other failures are left as they are, unless the call did not get through. -/
  | other {e : Failure} (plain : e.isA .reverted = false) (transport : e.isA .system = false) :
      Verdict (.error e) (.error e)

/-- The call did not get through. -/
def Lost (answer : Except Failure Unit) : Prop :=
  ∃ e, answer = .error e ∧ e.isA .system = true

theorem length_fieldSelector : fieldSelector.length = 4 := by
  rw [fieldSelector, List.length_take, Keccak.length_digest]
  rfl

/-- Absent, zero and empty data stand for one byte at most. -/
theorem length_of_absent {data : Value} (absent : data.isPresent = false) {bs : Bytes}
    (h : Word.looseBytes data = .ok bs) : bs.length ≤ 1 := by
  cases data
  case bool b =>
    cases h
    exact Nat.le_refl 1
  case int n =>
    have zero : n = 0 := by simpa [Value.isPresent] using absent
    subst zero
    have one : Word.looseBytes (.int 0) = .ok (Word.shortest 0) := rfl
    rw [one, Word.shortest, if_pos (by decide)] at h
    cases h
    exact Nat.le_refl 1
  case text s =>
    have empty : s = [] := by simpa [Value.isPresent] using absent
    subst empty
    cases h
    exact Nat.zero_le 1
  case bytes bytes =>
    have empty : bytes = [] := by simpa [Value.isPresent] using absent
    subst empty
    cases h
    exact Nat.zero_le 1
  all_goals cases h

/-- The selector is what the bytes of the data begin with. -/
theorem selector_eq_iff {data : Value} :
    selector data = fieldSelector ↔ ∃ rest, Word.looseBytes data = .ok (fieldSelector ++ rest) := by
  have four := length_fieldSelector
  rw [selector]
  constructor
  · intro same
    split at same
    · split at same
      · next bs read =>
        refine ⟨bs.drop 4, ?_⟩
        rw [read, ← same, List.take_append_drop]
      · rw [← same] at four
        cases four
    · rw [← same] at four
      cases four
  · rintro ⟨rest, read⟩
    have present : data.isPresent = true := by
      by_contra absent
      have short := length_of_absent (Bool.eq_false_of_not_eq_true absent) read
      rw [List.length_append] at short
      omega
    rw [if_pos present, read]
    exact List.take_left' four

/-! ## One call -/

/-- What a failure of the contract is told as. -/
def judged (chain : Value) (e : Failure) : Failure :=
  if e.isA .customRevert then
    if selector (revertData e) = fieldSelector then .inputRefused else .proofRefused
  else if e.isA .reverted then .proofReverted e
  else if e.isA .system then .verifierUnreachable chain e
  else e

theorem judge_apply (chain : Value) (e : Failure) (s : σ) :
    (judge chain e s).outcome = .error (judged chain e) ∧ (judge chain e s).state = s := by
  rw [judge, judged]
  split
  · dsimp only
    split
    · exact ⟨rfl, rfl⟩
    · split <;> exact ⟨rfl, rfl⟩
  · split
    · exact ⟨rfl, rfl⟩
    · split <;> exact ⟨rfl, rfl⟩

/-- What one call gives. -/
def answered (chain : Value) : Except Failure Unit → Except Failure Unit
  | .ok () => .ok ()
  | .error e => .error (judged chain e)

/-- An opening that succeeds and leaves the state as it is. -/
def Opens (opening : Run σ Unit) : Prop :=
  ∀ s, (opening s).outcome = .ok () ∧ (opening s).state = s

/-- Of a contract that was opened one call is what it answers, as it is told. -/
theorem callOnce_opened (chain address : Value) {opening : Run σ Unit} {s : σ}
    (opened : (opening s).outcome = .ok ()) (call : Run σ Unit) :
    (callOnce chain address opening call s).outcome =
        answered chain (call (opening s).state).outcome ∧
      (callOnce chain address opening call s).state = (call (opening s).state).state := by
  have step : callOnce chain address opening call s = Run.after (opening s).events
      (Run.after [.opened address interface] ((call.attempt >>= fun
        | .ok () => pure ()
        | .error e => judge chain e) (opening s).state)) :=
    Run.bind_apply_ok opened _
  rw [step, Run.bind_apply_ok (a := (call (opening s).state).outcome) (by rw [Run.attempt_apply]),
    Run.attempt_apply]
  cases (call (opening s).state).outcome with
  | ok _ => exact ⟨rfl, rfl⟩
  | error e => exact judge_apply chain e (call (opening s).state).state

/-- A contract that cannot be opened is not called, and nothing is said about the proof. -/
theorem callOnce_unopened (chain address : Value) {opening : Run σ Unit} {s : σ} {e : Failure}
    (fails : (opening s).outcome = .error e) (call : Run σ Unit) :
    callOnce chain address opening call s = ⟨.error e, (opening s).events, (opening s).state⟩ :=
  Run.bind_apply_error fails _

theorem callOnce_apply (chain address : Value) {opening : Run σ Unit} (opens : Opens opening)
    (call : Run σ Unit) (s : σ) :
    (callOnce chain address opening call s).outcome = answered chain (call s).outcome ∧
      (callOnce chain address opening call s).state = (call s).state := by
  have run := callOnce_opened chain address (opens s).1 call
  rwa [(opens s).2] at run

theorem judged_of_lost {chain : Value} {e : Failure} (lost : e.isA .system = true) :
    judged chain e = .verifierUnreachable chain e := by
  obtain ⟨plain, custom⟩ := Kind.not_reverted_of_system lost
  have plain : e.isA .reverted = false := plain
  have custom : e.isA .customRevert = false := custom
  simp [judged, plain, custom, lost]

/-- **Verdicts.** Unless it was lost on the way, an answer is told as what it says. -/
theorem verdict_answered (chain : Value) {answer : Except Failure Unit} (found : ¬ Lost answer) :
    Verdict answer (answered chain answer) := by
  cases answer with
  | ok _ => exact .accepts
  | error e =>
    have system : e.isA .system = false :=
      Bool.eq_false_of_not_eq_true fun lost => found ⟨e, rfl, lost⟩
    cases custom : e.isA .customRevert with
    | true =>
      by_cases input : selector (revertData e) = fieldSelector
      · obtain ⟨rest, data⟩ := selector_eq_iff.mp input
        have told : judged chain e = .inputRefused := by simp [judged, custom, input]
        rw [answered, told]
        exact .input custom data
      · have told : judged chain e = .proofRefused := by simp [judged, custom, input]
        rw [answered, told]
        exact .proof custom fun rest data => input (selector_eq_iff.mpr ⟨rest, data⟩)
    | false =>
      cases plain : e.isA .reverted with
      | true =>
        have told : judged chain e = .proofReverted e := by simp [judged, custom, plain]
        rw [answered, told]
        exact .reverted plain custom
      | false =>
        have told : judged chain e = e := by simp [judged, custom, plain, system]
        rw [answered, told]
        exact .other plain system

/-- **No second asking.** Only an answer that was lost is worth another attempt, unless the
contract itself fails for something transient. -/
theorem again_iff_lost {b : Backoff} (standard : b.repeatable = .standard) (chain : Value)
    {answer : Except Failure Unit} (lasting : ∀ e, answer = .error e → e.isA .transient = false) :
    b.Again (answered chain answer) ↔ Lost answer := by
  constructor
  · rintro ⟨f, fails, repeatable⟩
    by_contra found
    have verdict := verdict_answered chain found
    rw [fails] at verdict
    rw [Backoff.isRepeatable_standard standard, Except.ok.injEq] at repeatable
    cases verdict with
    | input custom data => cases repeatable
    | proof custom data => cases repeatable
    | reverted plain custom => cases repeatable
    | other plain system =>
      obtain transient | lost := Kind.standard_iff.mp repeatable
      · exact absurd transient (Bool.eq_false_iff.mp (lasting f rfl))
      · exact absurd lost (Bool.eq_false_iff.mp system)
  · rintro ⟨e, rfl, lost⟩
    refine ⟨_, rfl, ?_⟩
    rw [judged_of_lost lost, Backoff.isRepeatable_standard standard]
    rfl

/-! ## Inputs -/

theorem checkInputs_eq_ok {index : ℕ} {ns : List Int} (h : ∀ n ∈ ns, inScalarField n = true) :
    checkInputs index ns = .ok () := by
  induction ns generalizing index with
  | nil => rfl
  | cons n ns ih =>
    rw [List.forall_mem_cons] at h
    rw [checkInputs, if_pos h.1, ih h.2]

/-- The first input outside the field is told. -/
theorem checkInputs_eq_error (index : ℕ) {ns : List Int}
    (h : ∃ n ∈ ns, inScalarField n = false) :
    ∃ i n, ns[i]? = some n ∧ inScalarField n = false ∧
      checkInputs index ns = .error (.inputOutsideField (index + i)) := by
  induction ns generalizing index with
  | nil => simp at h
  | cons n ns ih =>
    cases inside : inScalarField n with
    | false =>
      refine ⟨0, n, rfl, inside, ?_⟩
      rw [checkInputs, inside]
      rfl
    | true =>
      have behind : ∃ m ∈ ns, inScalarField m = false := by
        obtain ⟨m, hm, outside⟩ := h
        obtain rfl | hm := List.mem_cons.mp hm
        · rw [inside] at outside
          cases outside
        · exact ⟨m, hm, outside⟩
      obtain ⟨i, m, there, outside, told⟩ := ih (index + 1) behind
      refine ⟨i + 1, m, there, outside, ?_⟩
      rw [checkInputs, if_pos inside, told, Nat.add_right_comm, Nat.add_assoc]

/-! ## Acceptance -/

theorem answered_eq_ok_iff {chain : Value} {answer : Except Failure Unit} :
    answered chain answer = .ok () ↔ answer = .ok () := by
  cases answer <;> simp [answered]

/-- **No acceptance unasked.** A proof is accepted only by a call that returned, of a contract that
was opened for it, in a state with all that openings and calls keep. -/
theorem exists_answer_of_verify {chain address : Value} {b : Backoff} {inputs : List Int}
    {opening call : Run σ Unit} (keeps : σ → Prop)
    (opened : ∀ s, keeps s → keeps (opening s).state) (called : ∀ s, keeps s → keeps (call s).state)
    {s : σ} (start : keeps s)
    (accepts : (verify chain address b inputs opening call s).outcome = .ok ()) :
    ∃ s, keeps s ∧ (opening s).outcome = .ok () ∧ (call (opening s).state).outcome = .ok () := by
  have step (s : σ) (kept : keeps s) : keeps (callOnce chain address opening call s).state := by
    cases found : (opening s).outcome with
    | ok _ =>
      rw [(callOnce_opened chain address found call).2]
      exact called _ (opened s kept)
    | error e =>
      rw [callOnce_unopened chain address found call]
      exact opened s kept
  obtain ⟨_, fields, accepts⟩ := Run.bind_outcome_eq_ok.mp accepts
  obtain ⟨s, kept, returns⟩ := Backoff.exists_of_run_ok step start accepts
  refine ⟨s, kept, ?_⟩
  cases found : (opening s).outcome with
  | ok _ =>
    rw [(callOnce_opened chain address found call).1, answered_eq_ok_iff] at returns
    exact ⟨rfl, returns⟩
  | error e =>
    rw [callOnce_unopened chain address found call] at returns
    cases returns

/-- A contract that is opened and returns at once accepts. -/
theorem verify_of_answered {chain address : Value} {b : Backoff} {n : ℕ} (usable : b.Usable n)
    {inputs : List Int} (inside : ∀ x ∈ inputs, inScalarField x = true) {opening call : Run σ Unit}
    {s : σ} (opened : (opening s).outcome = .ok ())
    (returns : (call (opening s).state).outcome = .ok ()) :
    (verify chain address b inputs opening call s).outcome = .ok () := by
  have once : (callOnce chain address opening call s).outcome = .ok () := by
    rw [(callOnce_opened chain address opened call).1, returns]
    rfl
  have found : ¬ b.Again (callOnce chain address opening call s).outcome := by
    rintro ⟨e, fails, _⟩
    cases once.symm.trans fails
  obtain ⟨k, rfl⟩ := Nat.exists_eq_add_of_le' usable.one
  rw [verify, checkInputs_eq_ok inside, Run.ofExcept_ok_bind, usable.run_eq,
    Backoff.runFrom_end (usable.standard.trans_ne (by decide)) (Or.inr found), once]

/-! ## All calls -/

/-- A contract that gives its answers in a row, with a record of what it was asked. -/
def scripted (answers : ℕ → Except Failure Unit) (asked : List Int × List Int) :
    Run (List (List Int × List Int)) Unit :=
  fun calls => ⟨answers calls.length, [], calls ++ [asked]⟩

section Script

variable (chain address : Value) {opening : Run (List (List Int × List Int)) Unit}
  (opens : Opens opening) (answers : ℕ → Except Failure Unit) (asked : List Int × List Int)

include opens

theorem called_scripted (i : ℕ) :
    Backoff.called (callOnce chain address opening (scripted answers asked)) i [] =
      List.replicate i asked := by
  induction i with
  | zero => rfl
  | succ i ih =>
    rw [Backoff.called, Function.iterate_succ_apply', ← Backoff.called, ih,
      (callOnce_apply chain address opens _ _).2, List.replicate_succ']
    rfl

theorem outcome_scripted (i : ℕ) :
    (callOnce chain address opening (scripted answers asked) (Backoff.called
      (callOnce chain address opening (scripted answers asked)) i [])).outcome =
      answered chain (answers i) := by
  rw [called_scripted chain address opens, (callOnce_apply chain address opens _ _).1, scripted,
    List.length_replicate]

end Script

/-- How a check ends that leaves the trace `t`, with so many attempts and the contract's answers in
a row. -/
structure Decided (chain : Value) (n : ℕ) (answers : ℕ → Except Failure Unit)
    (proof inputs : List Int) (t : Trace (List (List Int × List Int)) Unit) : Prop where
  /-- An input outside the field is refused without a call. -/
  outside : (∃ x ∈ inputs, inScalarField x = false) →
    ∃ i x, inputs[i]? = some x ∧ inScalarField x = false ∧
      t = ⟨.error (.inputOutsideField i), [], []⟩
  /-- Otherwise the first answer that is not lost gives the verdict, and no call is made behind
  it. -/
  found : (∀ x ∈ inputs, inScalarField x = true) → ∀ k < n, (∀ i < k, Lost (answers i)) →
    ¬ Lost (answers k) →
    Verdict (answers k) t.outcome ∧ t.state = List.replicate (k + 1) (proof, inputs)
  /-- If all answers are lost, every attempt was made, and the last of them is told. -/
  lost : (∀ x ∈ inputs, inScalarField x = true) → (∀ i < n, Lost (answers i)) →
    (∃ e, answers (n - 1) = .error e ∧ t.outcome = .error (.verifierUnreachable chain e)) ∧
      t.state = List.replicate n (proof, inputs)

/-- **One verdict.** However a contract that can be opened answers, a check ends with the verdict of
one answer: no rejection is asked about again, whatever would be answered then. -/
theorem verify_scripted (chain address : Value) {b : Backoff} {n : ℕ} (usable : b.Usable n)
    {opening : Run (List (List Int × List Int)) Unit} (opens : Opens opening)
    {answers : ℕ → Except Failure Unit}
    (lasting : ∀ i e, answers i = .error e → e.isA .transient = false) (proof inputs : List Int) :
    Decided chain n answers proof inputs
      (verify chain address b inputs opening (scripted answers (proof, inputs)) []) := by
  have again (i : ℕ) : b.Again (callOnce chain address opening (scripted answers (proof, inputs))
      (Backoff.called (callOnce chain address opening (scripted answers (proof, inputs)))
        i [])).outcome ↔ Lost (answers i) := by
    rw [outcome_scripted chain address opens]
    exact again_iff_lost usable.standard chain (lasting i)
  have delays {k : ℕ} (few : k < n) :
      ∀ i < k, ∃ v d, b.delay (0 + i) = .ok v ∧ Backoff.seconds v = .ok d := by
    intro i hi
    rw [Nat.zero_add]
    exact usable.delays few i hi
  have whole (inside : ∀ x ∈ inputs, inScalarField x = true) :
      verify chain address b inputs opening (scripted answers (proof, inputs)) [] =
        b.runFrom "verifyProof" (callOnce chain address opening (scripted answers (proof, inputs)))
          0 n [] := by
    rw [verify, checkInputs_eq_ok inside, Run.ofExcept_ok_bind, usable.run_eq]
    rfl
  refine ⟨?outside, ?found, ?lost⟩
  case outside =>
    intro outside
    obtain ⟨i, x, there, out, told⟩ := checkInputs_eq_error 0 outside
    refine ⟨i, x, there, out, ?_⟩
    rw [verify, told, Nat.zero_add]
    rfl
  case found =>
    intro inside k few lost found
    obtain ⟨m, rfl⟩ := Nat.exists_eq_add_of_lt few
    have first := Backoff.runFrom_first usable.standard "verifyProof" (m := m) (delays few)
      (fun i hi => (again i).mpr (lost i hi)) (Or.inr fun more => found ((again k).mp more))
    rw [outcome_scripted chain address opens, called_scripted chain address opens,
      Nat.add_comm m k, ← whole inside] at first
    rw [first.1, first.2]
    exact ⟨verdict_answered chain found, rfl⟩
  case lost =>
    intro inside lost
    obtain ⟨k, rfl⟩ := Nat.exists_eq_add_of_le' usable.one
    have last := Backoff.runFrom_first usable.standard "verifyProof" (m := 0)
      (delays (Nat.lt_succ_self k)) (fun i hi => (again i).mpr (lost i (Nat.lt_succ_of_lt hi)))
      (Or.inl rfl)
    rw [outcome_scripted chain address opens, called_scripted chain address opens, Nat.zero_add,
      ← whole inside] at last
    obtain ⟨e, answer, system⟩ := lost k (Nat.lt_succ_self k)
    rw [last.1, last.2, answer]
    exact ⟨⟨e, answer, congrArg Except.error (judged_of_lost system)⟩, rfl⟩

theorem usable_forCalls : Backoff.forCalls.Usable 3 where
  attempts := rfl
  one := by decide
  most := by decide
  base := ⟨_, rfl, by decide, by decide +kernel⟩
  limit := ⟨_, rfl, by decide, by decide +kernel⟩
  standard := rfl

/-- A lost call, a revert without data, and then calls that would accept. -/
def waverer : ℕ → Except Failure Unit
  | 0 => .error (.outside .connection [])
  | 1 => .error (.contract .customRevert .null .null)
  | _ => .ok ()

/-- A check of three inputs by a contract that answers so. -/
def wavered : Trace (List (List Int × List Int)) Unit :=
  verify (.int 1) (.text "0xabababababababababababababababababababab") .forCalls [0, 1, 2]
    (pure ()) (scripted waverer ([3], [0, 1, 2])) []

/-- The revert is the verdict of the second and last call. -/
theorem verify_scripted_waverer :
    wavered.outcome = .error .proofRefused ∧
      wavered.state = [([3], [0, 1, 2]), ([3], [0, 1, 2])] := by
  have lasting : ∀ i e, waverer i = .error e → e.isA .transient = false := by
    intro i e h
    match i with
    | 0 => cases h; rfl
    | 1 => cases h; rfl
    | _ + 2 => cases h
  have decided : Decided (.int 1) 3 waverer [3] [0, 1, 2] wavered :=
    verify_scripted (.int 1) _ usable_forCalls (fun _ => ⟨rfl, rfl⟩) lasting [3] [0, 1, 2]
  have lost : ∀ i < 1, Lost (waverer i) := by
    intro i first
    obtain rfl : i = 0 := by omega
    exact ⟨_, rfl, rfl⟩
  have found : ¬ Lost (waverer 1) := by
    rintro ⟨e, answer, system⟩
    cases answer
    cases system
  have run := decided.found (by decide) 1 (by decide) lost found
  refine ⟨?_, run.2⟩
  have verdict : Verdict (.error (.contract .customRevert .null .null)) _ := run.1
  generalize wavered.outcome = outcome at verdict ⊢
  cases verdict with
  | input custom data => cases data
  | proof custom data => rfl
  | reverted plain custom => cases custom
  | other plain transport => cases plain

end Pairing

end ProofGate
