import ProofGate.Proofs.Bundle
import ProofGate.Proofs.Hex
import ProofGate.Proofs.Run

/-!
# Malformed bundles

Most of what can be wrong with a description of a bundle is told as a malformed bundle: numbers out
of range, words of other sizes, wrong counts and missing members. What is not is a member that is
asked for its items without holding any, or for its bytes without standing for any. That failure is
the reader's own and reaches the caller as it is, so a description can fail without being rejected.
-/

namespace ProofGate

/-- A reading is contained if it gives its result or tells of a malformed bundle. -/
def Contained {α : Type} (r : Except Failure α) : Prop :=
  (∃ a, r = .ok a) ∨ ∃ e, r = .error e ∧ e.kind = .malformedBundle

/-- A reading leaks a failure if it ends in one that does not tell of a malformed bundle. -/
def Leaks {α : Type} (r : Except Failure α) (e : Failure) : Prop :=
  r = .error e ∧ e.kind ≠ .malformedBundle

section

variable {α β : Type} {e : Failure}

/-- A reading in two steps leaks what either of them leaks. -/
theorem leaks_bind {r : Except Failure α} {f : α → Except Failure β} :
    Leaks (r >>= f) e ↔ Leaks r e ∨ ∃ a, r = .ok a ∧ Leaks (f a) e :=
  @strays_bind _ _ (· = .malformedBundle) r f e

theorem contained_iff {r : Except Failure α} : Contained r ↔ ∀ e, ¬ Leaks r e := by
  constructor
  · rintro (⟨a, rfl⟩ | ⟨d, rfl, malformed⟩) e ⟨failed, other⟩
    · cases failed
    · cases failed
      exact other malformed
  · intro tight
    cases r with
    | ok a => exact Or.inl ⟨a, rfl⟩
    | error d => exact Or.inr ⟨d, rfl, not_not.mp fun other => tight d ⟨rfl, other⟩⟩

theorem not_leaks {r : Except Failure α} (told : Tells (· = .malformedBundle) r) : ¬ Leaks r e :=
  told.not_strays

theorem not_leaks_ok (a : α) : ¬ Leaks (.ok a) e :=
  not_leaks (tells_ok a)

end

/-! ## Members without items and without bytes -/

/-- Values that hold no items: nothing, truth values and numbers. -/
inductive Value.Atomic : Value → Prop where
  | null : Atomic .null
  | bool (b : Bool) : Atomic (.bool b)
  | int (n : Int) : Atomic (.int n)
  | float (x : Double) : Atomic (.float x)

/-- Why a value stands for no bytes. -/
inductive Word.Unread : Value → Failure → Prop where
  | text {t : Text} {fault : Hex.Fault} : Hex.read t = .error fault →
      Unread (.text t) (.hexText fault)
  | negative {n : Int} : n < 0 → Unread (.int n) (.negativeBytes n)
  | null : Unread .null (.notLooseBytes .null)
  | float (x : Double) : Unread (.float x) (.notLooseBytes (.float x))
  | list (vs : List Value) : Unread (.list vs) (.notLooseBytes (.list vs))
  | object (ms : List (Text × Value)) : Unread (.object ms) (.notLooseBytes (.object ms))

/-- What is wrong with a value that stands for no bytes is never told as a malformed bundle, nor as
any other rejection. -/
theorem Word.Unread.foreign {v : Value} {e : Failure} (unread : Word.Unread v e) :
    e.isA .rejection = false := by
  cases unread with
  | @text t fault _ => cases fault <;> rfl
  | negative | null | float | list | object => rfl

theorem not_malformed_of_foreign {e : Failure} (foreign : e.isA .rejection = false) :
    e.kind ≠ .malformedBundle := by
  intro malformed
  rw [Failure.isA, malformed] at foreign
  cases foreign

theorem Word.looseBytes_eq_error_iff {v : Value} {e : Failure} :
    Word.looseBytes v = .error e ↔ Word.Unread v e := by
  constructor
  · intro failed
    cases v with
    | null | float | list | object =>
      cases failed
      constructor
    | bool | bytes => cases failed
    | int n =>
      by_cases negative : n < 0
      · rw [Word.looseBytes, if_pos negative] at failed
        cases failed
        exact .negative negative
      · rw [Word.looseBytes, if_neg negative] at failed
        cases failed
    | text t =>
      cases read : Hex.read t with
      | ok bs => simp [Word.looseBytes, read] at failed
      | error fault =>
        simp only [Word.looseBytes, read] at failed
        cases failed
        exact .text read
  · intro unread
    cases unread with
    | text read => simp only [Word.looseBytes, read]
    | negative negative => rw [Word.looseBytes, if_pos negative]
    | null | float | list | object => rfl

theorem leaks_looseBytes {v : Value} {e : Failure} :
    Leaks (Word.looseBytes v) e ↔ Word.Unread v e := by
  rw [Leaks, Word.looseBytes_eq_error_iff, and_iff_left_iff_imp]
  exact fun unread => not_malformed_of_foreign unread.foreign

theorem Member.elements_eq_error_iff {v : Value} {e : Failure} :
    Member.elements v = .error e ↔ v.Atomic ∧ e = .noElements v := by
  constructor
  · intro failed
    cases v with
    | null | bool | int | float =>
      cases failed
      exact ⟨by constructor, rfl⟩
    | text | bytes | list | object => cases failed
  · rintro ⟨atomic, rfl⟩
    cases atomic
    all_goals rfl

theorem leaks_elements {v : Value} {e : Failure} :
    Leaks (Member.elements v) e ↔ v.Atomic ∧ e = .noElements v := by
  rw [Leaks, Member.elements_eq_error_iff, and_iff_left_iff_imp]
  rintro ⟨_, rfl⟩
  exact not_malformed_of_foreign rfl

/-- Items are counted where they are held. -/
theorem leaks_sized {v : Value} {e : Failure} :
    Leaks (Member.sized v) e ↔ v.Atomic ∧ e = .noLength v := by
  cases held : Member.elements v with
  | ok vs =>
    have holds : ¬ v.Atomic := by
      intro atomic
      rw [Member.elements_eq_error_iff.mpr ⟨atomic, rfl⟩] at held
      cases held
    simp only [Member.sized, held, not_leaks_ok, holds, false_and]
  | error d =>
    obtain ⟨atomic, _⟩ := Member.elements_eq_error_iff.mp held
    simp only [Leaks, Member.sized, held, atomic, true_and, Except.error.injEq]
    constructor
    · rintro ⟨rfl, _⟩
      rfl
    · rintro rfl
      exact ⟨rfl, not_malformed_of_foreign rfl⟩

namespace Bundle

/-! ## Steps that only tell of malformed bundles -/

theorem kind_of_ofWordList {vs : List Value} {e : Failure} (h : ofWordList vs = .error e) :
    e.kind = .malformedBundle := by
  obtain words | ⟨_, _, count⟩ := bind_eq_error.mp h
  · exact Word.kind_of_ofValues words
  · exact kind_of_check count

theorem kind_of_need {ms : List (Text × Value)} {name : String} {e : Failure}
    (h : need ms name = .error e) : e.kind = .malformedBundle := by
  unfold need at h
  split at h
  · cases h
  · cases h
    rfl

theorem need_eq_ok_iff {ms : List (Text × Value)} {name : String} {v : Value} :
    need ms name = .ok v ↔ Value.find? ms name = some v := by
  unfold need
  split <;> simp_all

theorem kind_of_elementOf {v : Value} {e : Failure} (h : elementOf v = .error e) :
    e.kind = .malformedBundle := by
  unfold elementOf at h
  split at h
  · split at h
    · cases h
    · cases h
      rfl
  · cases h

theorem kind_of_elementsOf {vs : List Value} {e : Failure} (h : elementsOf vs = .error e) :
    e.kind = .malformedBundle := by
  induction vs with
  | nil => cases h
  | cons v vs ih =>
    obtain first | ⟨_, _, h⟩ := bind_eq_error.mp h
    · exact kind_of_elementOf first
    · obtain rest | ⟨_, _, h⟩ := bind_eq_error.mp h
      · exact ih rest
      · cases h

/-- Numbers and bytes of any count are put together, or told to be malformed. -/
theorem kind_of_build {ps xs : List Value} {data : Bytes} {e : Failure}
    (h : build (.list ps) (.list xs) (.bytes data) = .error e) : e.kind = .malformedBundle := by
  have listed (vs : List Value) : Member.sized (.list vs) = .ok vs := rfl
  have elements : Member.sized (.bytes data) = .ok (data.map fun b => .int b.toNat) := rfl
  have blob : blobOf (.bytes data) = .ok data := rfl
  simp only [build, listed, elements, blob, ok_bind] at h
  split at h
  · cases h
    rfl
  · split at h
    · cases h
      rfl
    · split at h
      · cases h
        rfl
      · obtain head | ⟨_, _, h⟩ := bind_eq_error.mp h
        · exact Word.kind_of_ofValues head
        · obtain middle | ⟨_, _, h⟩ := bind_eq_error.mp h
          · exact Word.kind_of_ofValues middle
          · exact kind_of_check h

/-! ## Descriptions -/

/-- A member holds items of which each is a number or writes one. -/
def Numbers (ms : List (Text × Value)) (name : String) : Prop :=
  ∃ v vs ns, Value.find? ms name = some v ∧ Member.elements v = .ok vs ∧ elementsOf vs = .ok ns

/-- The failures of a description that are not told as a malformed bundle, each with the member it
comes from. A member is looked at only if those in front of it are in order. -/
inductive Escapes (ms : List (Text × Value)) : Failure → Prop where
  | words {v : Value} : Value.find? ms "words" = some v → v.Atomic → Escapes ms (.noLength v)
  | proof {v : Value} {e : Failure} : Value.find? ms "words" = none →
      Value.find? ms "proof" = some v → Word.Unread v e → Escapes ms e
  | numbers {v : Value} : Value.find? ms "words" = none → Value.find? ms "proof" = none →
      Value.find? ms "groth16_proof" = some v → v.Atomic → Escapes ms (.noElements v)
  | inputs {v : Value} : Value.find? ms "words" = none → Value.find? ms "proof" = none →
      Numbers ms "groth16_proof" → Value.find? ms "groth16_inputs" = some v → v.Atomic →
      Escapes ms (.noElements v)
  | statement {v : Value} {e : Failure} : Value.find? ms "words" = none →
      Value.find? ms "proof" = none → Numbers ms "groth16_proof" → Numbers ms "groth16_inputs" →
      Value.find? ms "public_inputs" = some v → Word.Unread v e → Escapes ms e

theorem Escapes.foreign {ms : List (Text × Value)} {e : Failure} (escapes : Escapes ms e) :
    e.isA .rejection = false := by
  cases escapes with
  | words | numbers | inputs => rfl
  | proof _ _ unread => exact unread.foreign
  | statement _ _ _ _ _ unread => exact unread.foreign

theorem leaks_ofWords {v : Value} {e : Failure} :
    Leaks (ofWords v) e ↔ v.Atomic ∧ e = .noLength v := by
  have tight (vs : List Value) : ¬ Leaks (ofWordList vs) e := not_leaks fun _ => kind_of_ofWordList
  simp only [ofWords, leaks_bind, leaks_sized, tight, and_false, exists_false, or_false]

theorem leaks_ofHex {v : Value} {e : Failure} : Leaks (ofHex v) e ↔ Word.Unread v e := by
  have tight (bs : Bytes) : ¬ Leaks (ofBytes bs) e := not_leaks fun _ => kind_of_ofWordList
  simp only [ofHex, leaks_bind, leaks_looseBytes, tight, and_false, exists_false, or_false]

/-- Of three parts each in turn either leaks or is in order, and then the next one is looked at. -/
theorem leaks_parts {ms : List (Text × Value)} {e : Failure}
    (words : Value.find? ms "words" = none) (proof : Value.find? ms "proof" = none) :
    Leaks (ofMembers ms) e ↔
      ∃ v, Value.find? ms "groth16_proof" = some v ∧ (v.Atomic ∧ e = .noElements v ∨
        ∃ vs, Member.elements v = .ok vs ∧ ∃ ns, elementsOf vs = .ok ns ∧
          ∃ v', Value.find? ms "groth16_inputs" = some v' ∧ (v'.Atomic ∧ e = .noElements v' ∨
            ∃ vs', Member.elements v' = .ok vs' ∧ ∃ ns', elementsOf vs' = .ok ns' ∧
              ∃ v'', Value.find? ms "public_inputs" = some v'' ∧ Word.Unread v'' e)) := by
  have need (name : String) : ¬ Leaks (need ms name) e := not_leaks fun _ => kind_of_need
  have elements (vs : List Value) : ¬ Leaks (elementsOf vs) e :=
    not_leaks fun _ => kind_of_elementsOf
  have build (ps xs : List Value) (data : Bytes) :
      ¬ Leaks (build (.list ps) (.list xs) (.bytes data)) e := not_leaks fun _ => kind_of_build
  simp only [ofMembers, words, proof, leaks_bind, need, elements, build, leaks_elements,
    leaks_looseBytes, need_eq_ok_iff, false_or, and_false, exists_false, or_false]

/-- **Descriptions.** What a description leaks is what escapes from one of its members. -/
theorem leaks_ofMembers {ms : List (Text × Value)} {e : Failure} :
    Leaks (ofMembers ms) e ↔ Escapes ms e := by
  constructor
  · intro leaks
    cases words : Value.find? ms "words" with
    | some v =>
      simp only [ofMembers, words] at leaks
      obtain ⟨atomic, rfl⟩ := leaks_ofWords.mp leaks
      exact .words words atomic
    | none =>
      cases proof : Value.find? ms "proof" with
      | some v =>
        simp only [ofMembers, words, proof] at leaks
        exact .proof words proof (leaks_ofHex.mp leaks)
      | none =>
        obtain ⟨v, found, ⟨atomic, rfl⟩ | ⟨vs, held, ns, read, leaks⟩⟩ :=
          (leaks_parts words proof).mp leaks
        · exact .numbers words proof found atomic
        · have first : Numbers ms "groth16_proof" := ⟨v, vs, ns, found, held, read⟩
          obtain ⟨v', found', ⟨atomic, rfl⟩ | ⟨vs', held', ns', read', leaks⟩⟩ := leaks
          · exact .inputs words proof first found' atomic
          · obtain ⟨v'', found'', unread⟩ := leaks
            exact .statement words proof first ⟨v', vs', ns', found', held', read'⟩ found'' unread
  · intro escapes
    cases escapes with
    | words words atomic =>
      rw [ofMembers, words]
      exact leaks_ofWords.mpr ⟨atomic, rfl⟩
    | proof words proof unread =>
      rw [ofMembers, words, proof]
      exact leaks_ofHex.mpr unread
    | numbers words proof found atomic =>
      exact (leaks_parts words proof).mpr ⟨_, found, Or.inl ⟨atomic, rfl⟩⟩
    | inputs words proof first found atomic =>
      obtain ⟨v, vs, ns, found', held, read⟩ := first
      exact (leaks_parts words proof).mpr
        ⟨v, found', Or.inr ⟨vs, held, ns, read, _, found, Or.inl ⟨atomic, rfl⟩⟩⟩
    | statement words proof first second found unread =>
      obtain ⟨v, vs, ns, found', held, read⟩ := first
      obtain ⟨v', vs', ns', found'', held', read'⟩ := second
      exact (leaks_parts words proof).mpr ⟨v, found', Or.inr ⟨vs, held, ns, read,
        v', found'', Or.inr ⟨vs', held', ns', read', _, found, unread⟩⟩⟩

/-- **Malformed or foreign.** A description is read as a bundle or told to be malformed unless a
member that is looked at holds no items or stands for no bytes, and then it ends in a failure that
is no rejection at all. A text is read or told to be malformed exactly if it is hexadecimal. -/
theorem malformed_or_foreign (ms : List (Text × Value)) (t : Text) :
    (Contained (ofMembers ms) ↔ ∀ e, ¬ Escapes ms e) ∧
    (∀ e, Escapes ms e → ofMembers ms = .error e ∧ e.isA .rejection = false) ∧
    (Contained (ofHex (.text t)) ↔ Hex.Hexadecimal t) := by
  refine ⟨?_, fun e escapes => ⟨(leaks_ofMembers.mpr escapes).1, escapes.foreign⟩, ?_⟩
  · simp only [contained_iff, leaks_ofMembers]
  · rw [contained_iff, ← Hex.read_isOk_iff]
    constructor
    · intro tight
      cases read : Hex.read t with
      | ok bs => exact ⟨bs, rfl⟩
      | error fault => exact absurd (leaks_ofHex.mpr (.text read)) (tight _)
    · rintro ⟨bs, read⟩ e leaks
      cases leaks_ofHex.mp leaks with
      | text unread => cases read.symm.trans unread

/-- A text that is not hexadecimal is not contained, by itself and as a member. -/
theorem malformed_or_foreign_sample :
    ¬ Contained (ofHex (.text "zz")) ∧
    ofMembers [("proof", .text "zz")] = .error (.hexText .notDigit) ∧
    (Failure.hexText .notDigit).isA .rejection = false := by
  have unread : Hex.read "zz" = .error .notDigit := by decide
  have escapes : Escapes [("proof", .text "zz")] (.hexText .notDigit) :=
    .proof rfl rfl (.text unread)
  obtain ⟨_, foreign, texts⟩ := malformed_or_foreign [("proof", .text "zz")] "zz"
  refine ⟨fun contained => ?_, foreign _ escapes⟩
  obtain ⟨bs, read⟩ := Hex.read_isOk_iff.mpr (texts.mp contained)
  cases unread.symm.trans read

/-- **Not every failure tells of a malformed bundle**, neither for texts nor for descriptions. -/
theorem not_always_malformed :
    (¬ ∀ t, Contained (ofHex (.text t))) ∧ ¬ ∀ ms, Contained (ofMembers ms) := by
  constructor
  · intro always
    have unread : Hex.read "zz" = .error .notDigit := by decide
    exact contained_iff.mp (always "zz") _ (leaks_ofHex.mpr (.text unread))
  · intro always
    have escapes : Escapes [("words", .null)] (.noLength .null) := .words rfl .null
    exact contained_iff.mp (always [("words", .null)]) _ (leaks_ofMembers.mpr escapes)

end Bundle

end ProofGate
