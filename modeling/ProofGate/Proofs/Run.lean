import ProofGate.Run

/-!
# Laws of runs

Outcomes are taken apart at their binds, and a run is a function of the state it starts in: what
it gives is read off its parts one after the other. Nothing later unfolds `Run.andThen`.
-/

namespace ProofGate

variable {σ α β γ ε : Type}

/-! ## Outcomes -/

@[simp] theorem ok_bind (a : α) (f : α → Except ε β) : (Except.ok a >>= f) = f a := rfl

@[simp] theorem error_bind (e : ε) (f : α → Except ε β) :
    ((Except.error e : Except ε α) >>= f) = .error e := rfl

@[simp] theorem map_ok (f : α → β) (a : α) : (Except.ok a : Except ε α).map f = .ok (f a) := rfl

@[simp] theorem map_error (f : α → β) (e : ε) :
    (Except.error e : Except ε α).map f = .error e := rfl

theorem bind_eq_ok {x : Except ε α} {f : α → Except ε β} {b : β} :
    (x >>= f) = .ok b ↔ ∃ a, x = .ok a ∧ f a = .ok b := by
  cases x <;> simp

theorem bind_eq_error {x : Except ε α} {f : α → Except ε β} {e : ε} :
    (x >>= f) = .error e ↔ x = .error e ∨ ∃ a, x = .ok a ∧ f a = .error e := by
  cases x <;> simp

theorem map_eq_ok {x : Except ε α} {f : α → β} {b : β} :
    x.map f = .ok b ↔ ∃ a, x = .ok a ∧ f a = b := by
  cases x <;> simp

theorem map_eq_error {x : Except ε α} {f : α → β} {e : ε} :
    x.map f = .error e ↔ x = .error e := by
  cases x <;> simp

/-! ## Kinds of failure -/

section

variable {told : Kind → Prop} {r : Except Failure α} {f : α → Except Failure β} {e : Failure}

/-- A reading tells all of its failures in some kinds. -/
def Tells (told : Kind → Prop) (r : Except Failure α) : Prop :=
  ∀ e, r = .error e → told e.kind

/-- A reading strays from some kinds of failure if it ends in one of another kind. -/
def Strays (told : Kind → Prop) (r : Except Failure α) (e : Failure) : Prop :=
  r = .error e ∧ ¬ told e.kind

theorem tells_ok (a : α) : Tells told (.ok a : Except Failure α) := nofun

theorem tells_error (h : told e.kind) : Tells told (.error e : Except Failure α) := by
  rintro _ ⟨⟩
  exact h

theorem Tells.mono {told' : Kind → Prop} (tells : Tells told r)
    (more : ∀ k, told k → told' k) : Tells told' r :=
  fun e failed => more _ (tells e failed)

theorem Tells.bind (first : Tells told r) (rest : ∀ a, Tells told (f a)) :
    Tells told (r >>= f) := by
  intro e failed
  rcases bind_eq_error.mp failed with early | ⟨a, _, late⟩
  · exact first e early
  · exact rest a e late

theorem Tells.not_strays (tells : Tells told r) : ¬ Strays told r e := by
  rintro ⟨failed, other⟩
  exact other (tells e failed)

/-- A reading succeeds or tells its failure unless it strays. -/
theorem ok_or_told_iff :
    ((∃ a, r = .ok a) ∨ ∃ e, r = .error e ∧ told e.kind) ↔ ∀ e, ¬ Strays told r e := by
  cases r with
  | ok a => simp [Strays]
  | error d => simp [Strays]

/-- A reading in two steps strays as either of them does. -/
theorem strays_bind :
    Strays told (r >>= f) e ↔ Strays told r e ∨ ∃ a, r = .ok a ∧ Strays told (f a) e := by
  cases r with
  | error d => simp [Strays]
  | ok a => simp [Strays]

end

/-! ## Runs -/

namespace Run

/-- A run with events put in front of its own. -/
def after (events : List Event) (t : Trace σ α) : Trace σ α :=
  { t with events := events ++ t.events }

@[simp] theorem after_outcome (events : List Event) (t : Trace σ α) :
    (after events t).outcome = t.outcome := rfl

theorem after_after (first second : List Event) (t : Trace σ α) :
    after first (after second t) = after (first ++ second) t := by
  simp [after]

@[simp] theorem pure_apply (a : α) (s : σ) : (pure a : Run σ α) s = ⟨.ok a, [], s⟩ := rfl

@[simp] theorem fail_apply (e : Failure) (s : σ) :
    (fail e : Run σ α) s = ⟨.error e, [], s⟩ := rfl

@[simp] theorem ofExcept_apply (r : Except Failure α) (s : σ) : ofExcept r s = ⟨r, [], s⟩ := rfl

@[simp] theorem log_apply (level : Level) (channel : Channel) (text : Text) (s : σ) :
    log level channel text s = ⟨.ok (), [.logged ⟨level, channel, text⟩], s⟩ := rfl

@[simp] theorem attempt_apply (r : Run σ α) (s : σ) :
    r.attempt s = ⟨.ok (r s).outcome, (r s).events, (r s).state⟩ := rfl

theorem bind_apply_ok {r : Run σ α} {s : σ} {a : α} (h : (r s).outcome = .ok a)
    (f : α → Run σ β) : (r >>= f) s = after (r s).events (f a (r s).state) := by
  show andThen r f s = _
  rw [andThen, h]
  rfl

theorem bind_apply_error {r : Run σ α} {s : σ} {e : Failure} (h : (r s).outcome = .error e)
    (f : α → Run σ β) : (r >>= f) s = ⟨.error e, (r s).events, (r s).state⟩ := by
  show andThen r f s = _
  rw [andThen, h]

@[simp] theorem log_bind_apply (level : Level) (channel : Channel) (text : Text)
    (f : Unit → Run σ β) (s : σ) :
    (log level channel text >>= f) s = after [.logged ⟨level, channel, text⟩] (f () s) := rfl

@[simp] theorem emit_bind_apply (e : Event) (f : Unit → Run σ β) (s : σ) :
    (emit e >>= f) s = after [e] (f () s) := rfl

@[simp] theorem ofExcept_ok_bind (a : α) (f : α → Run σ β) : (ofExcept (.ok a) >>= f) = f a := rfl

@[simp] theorem ofExcept_error_bind (e : Failure) (f : α → Run σ β) :
    (ofExcept (.error e : Except Failure α) >>= f) = fail e := rfl

theorem ofExcept_bind (r : Except Failure α) (f : α → Except Failure β) :
    (ofExcept (r >>= f) : Run σ β) = (ofExcept r >>= fun a => ofExcept (f a)) := by
  cases r <;> rfl

theorem ofExcept_map_bind (r : Except Failure α) (f : α → β) (rest : β → Run σ γ) :
    (ofExcept (r.map f) >>= rest) = (ofExcept r >>= fun a => rest (f a)) := by
  cases r <;> rfl

/-- What follows a check counts only for what the check gives. -/
theorem ofExcept_bind_congr {r : Except Failure α} {f f' : α → Run σ β}
    (h : ∀ a, r = .ok a → f a = f' a) : (ofExcept r >>= f) = (ofExcept r >>= f') := by
  cases r with
  | error e => rfl
  | ok a => exact h a rfl

instance : LawfulMonad (Run σ) := LawfulMonad.mk' (Run σ)
  (by
    intro α r
    funext s
    show andThen r done s = r s
    unfold andThen
    generalize r s = t
    obtain ⟨outcome, events, state⟩ := t
    cases outcome with
    | error e => rfl
    | ok a => simp [done, ofExcept])
  (by
    intro α β a f
    rfl)
  (by
    intro α β γ r f g
    funext s
    cases h : (r s).outcome with
    | error e =>
      rw [bind_apply_error (r := r >>= f) (e := e), bind_apply_error h, bind_apply_error h]
      rw [bind_apply_error h]
    | ok a =>
      have hf := bind_apply_ok h f
      rw [bind_apply_ok h]
      cases k : (f a (r s).state).outcome with
      | error e =>
        rw [bind_apply_error (r := r >>= f) (e := e) (by rw [hf]; exact k), hf,
          bind_apply_error k]
        rfl
      | ok b =>
        rw [bind_apply_ok (r := r >>= f) (a := b) (by rw [hf]; exact k), hf, bind_apply_ok k,
          after_after]
        rfl)

/-- A run returns through a bind exactly if both halves do. -/
theorem bind_outcome_eq_ok {r : Run σ α} {f : α → Run σ β} {s : σ} {b : β} :
    ((r >>= f) s).outcome = .ok b ↔
      ∃ a, (r s).outcome = .ok a ∧ (f a (r s).state).outcome = .ok b := by
  cases h : (r s).outcome with
  | error e => rw [bind_apply_error h]; simp
  | ok a => rw [bind_apply_ok h]; simp

end Run

end ProofGate
