import ProofGate.Proofs.Run
import ProofGate.Saving
import Mathlib.Tactic.Common

/-!
# Saved documents

A document that can be written either is in its file to the end, and nothing else has changed, or
there is a failure and no file has changed at all. Folders may have been made in both cases.
-/

namespace ProofGate

namespace Folder

/-! ## Folders that are made -/

theorem files_makeOne {d d' : Folder} {path : Text} (made : d.makeOne path = .ok d') :
    d'.files = d.files := by
  obtain ⟨s, _, made⟩ := bind_eq_ok.mp made
  split at made
  · cases made
  · cases made
    rfl

theorem files_ensureOne {d d' : Folder} {path : Text} (made : d.ensureOne path = .ok d') :
    d'.files = d.files := by
  unfold ensureOne at made
  cases one : d.makeOne path with
  | ok e =>
    rw [one] at made
    cases made
    exact files_makeOne one
  | error e =>
    rw [one] at made
    dsimp only at made
    split at made
    · cases made
    · split at made
      · cases made
        rfl
      · cases made

theorem files_ensure {d d' : Folder} {p : Path} {above : ℕ} (made : d.ensure p above = .ok d') :
    d'.files = d.files := by
  induction above generalizing d d' p with
  | zero => exact files_ensureOne made
  | succ above ih =>
    unfold ensure at made
    cases one : d.ensureOne p.text with
    | ok e =>
      rw [one] at made
      cases made
      exact files_ensureOne one
    | error e =>
      rw [one] at made
      dsimp only at made
      split at made
      · cases up : d.ensure p.parent above with
        | error e =>
          rw [up] at made
          cases made
        | ok higher =>
          rw [up] at made
          exact (files_ensureOne made).trans (ih up)
      · cases made

theorem files_make {d d' : Folder} {p : Path} (made : d.make p = .ok d') : d'.files = d.files :=
  files_ensure made

/-! ## Files that are stored -/

theorem lookup_others (fs : List (Spot × Bytes)) (s other : Spot) :
    (fs.filter fun f => f.1 != s).lookup other = if other = s then none else fs.lookup other := by
  induction fs with
  | nil => simp
  | cons f fs ih =>
    obtain ⟨here, data⟩ := f
    by_cases gone : here = s
    · subst gone
      rw [List.filter_cons_of_neg (by simp), ih]
      by_cases same : other = here
      · simp [same]
      · have differs : (other == here) = false := beq_eq_false_iff_ne.mpr same
        simp [same, List.lookup_cons, differs]
    · rw [List.filter_cons_of_pos (by simp [gone]), List.lookup_cons, List.lookup_cons, ih]
      by_cases same : other = here
      · subst same
        simp [gone]
      · have differs : (other == here) = false := beq_eq_false_iff_ne.mpr same
        simp [differs]

/-- Storing a file changes that file alone. -/
theorem file?_store (d : Folder) (s other : Spot) (data : Bytes) :
    (d.store s data).file? other = if other = s then some data else d.file? other := by
  show ((d.files.filter fun f => f.1 != s) ++ [(s, data)]).lookup other = _
  rw [List.lookup_append, lookup_others]
  by_cases same : other = s
  · simp [same]
  · have differs : (other == s) = false := beq_eq_false_iff_ne.mpr same
    simp [same, List.lookup_cons, differs, file?]

theorem isFolder_store {d : Folder} {s here : Spot} (data : Bytes)
    (known : d.isFolder here = true) : (d.store s data).isFolder here = true := by
  unfold isFolder at known ⊢
  rw [Bool.or_eq_true, Bool.or_eq_true] at known ⊢
  rcases known with known | below
  · exact Or.inl known
  · obtain ⟨f, hf, below⟩ := List.any_eq_true.mp below
    refine Or.inr (List.any_eq_true.mpr ?_)
    by_cases same : f.1 = s
    · refine ⟨(s, data), List.mem_append_right _ List.mem_cons_self, ?_⟩
      rw [← same]
      exact below
    · refine ⟨f, List.mem_append_left _ (List.mem_filter.mpr ⟨hf, ?_⟩), below⟩
      rw [bne_iff_ne]
      exact same

/-- A spot that was found is found again when there is one more file. -/
theorem follow_store {d : Folder} {s : Spot} (data : Bytes) {here found : Spot} {parts : List Text}
    (leads : d.follow here parts = .ok found) :
    (d.store s data).follow here parts = .ok found := by
  induction parts generalizing here with
  | nil => exact leads
  | cons p ps ih =>
    unfold follow at leads ⊢
    by_cases known : d.isFolder here = true
    · rw [if_pos known] at leads
      rw [if_pos (isFolder_store data known)]
      by_cases dot : p = "."
      · rw [if_pos dot] at leads ⊢
        exact ih leads
      · rw [if_neg dot] at leads ⊢
        by_cases up : p = ".."
        · rw [if_pos up] at leads ⊢
          exact ih leads
        · rw [if_neg up] at leads ⊢
          by_cases long : Path.partLimit < (Path.nameBytes p).length
          · rw [if_pos long] at leads
            cases leads
          · rw [if_neg long] at leads ⊢
            exact ih leads
    · rw [if_neg known] at leads
      split at leads <;> cases leads

theorem find_store {d : Folder} {s : Spot} (data : Bytes) {path : Text} {found : Spot}
    (leads : d.find path = .ok found) : (d.store s data).find path = .ok found := by
  unfold find at leads ⊢
  cases fault : Path.nameFault? path with
  | some fault' =>
    rw [fault] at leads
    cases leads
  | none =>
    rw [fault] at leads
    dsimp only at leads ⊢
    split at leads
    · cases leads
    · next filled =>
      rw [if_neg filled]
      split at leads
      · cases leads
      · next short =>
        rw [if_neg short]
        generalize (if path.head? = some Path.slash then (⟨.root, []⟩ : Spot) else .work) = start
          at leads ⊢
        cases followed : d.follow start (writtenParts path) with
        | error o =>
          rw [followed] at leads
          cases leads
        | ok there =>
          rw [followed] at leads
          rw [follow_store data followed]
          exact leads

end Folder

namespace Saving

/-! ## Steps -/

theorem change_bind_apply {α : Type} (r : Except Failure Folder) (f : Unit → Run Folder α)
    (d : Folder) :
    (change r >>= f) d = match r with
      | .ok d' => f () d'
      | .error e => ⟨.error e, [], d⟩ := by
  cases r <;> rfl

theorem current_bind_apply {α : Type} (f : Folder → Run Folder α) (d : Folder) :
    (current >>= f) d = f d d := rfl

/-- Where a document is saved. -/
def place (file : Text) : Path :=
  (Path.ofText folderName).append (Path.ofText file)

/-- A file that holds a document to its end, where nothing else has changed. -/
structure Saved (before after : Folder) (path : Text) (data : Bytes) (spot : Spot) : Prop where
  found : after.find path = .ok spot
  held : after.file? spot = some data
  others : ∀ other, other ≠ spot → after.file? other = before.file? other

theorem Saved.readBytes {before after : Folder} {path : Text} {data : Bytes} {spot : Spot}
    (saved : Saved before after path data spot) : after.readBytes path = .ok data := by
  rw [Folder.readBytes, saved.found, ok_bind, saved.held]
  rfl

def told (path : Text) : Event :=
  .printed (.line ("[cyan]Data saved to:[/cyan] " ++ path))

theorem save_apply {v : Value} {t : Text} (written : Json.write v = .ok t) (file : Text)
    (d : Folder) :
    save v (.text file) (.text folderName) true d =
      match d.make (Path.ofText folderName) with
      | .error e => ⟨.error e, [], d⟩
      | .ok d₁ =>
        match d₁.make (place file).parent with
        | .error e => ⟨.error e, [], d₁⟩
        | .ok d₂ =>
          match d₂.openFile (place file).text with
          | .error e => ⟨.error e, [], d₂⟩
          | .ok fill =>
            ⟨.ok (place file).text, [told (place file).text], fill (Utf8.encode t)⟩ := by
  have steps : save v (.text file) (.text folderName) true =
      (current >>= fun d => change (d.make (Path.ofText folderName)) >>= fun _ =>
        current >>= fun d => change (d.make (place file).parent) >>= fun _ =>
        current >>= fun d => Run.ofExcept (d.openFile (place file).text) >>= fun fill =>
        change (.ok (fill (Utf8.encode t))) >>= fun _ =>
        Run.emit (told (place file).text) >>= fun _ => pure (place file).text) := by
    unfold save
    simp only [pathOf, Run.ofExcept_ok_bind, written]
    rfl
  rw [steps, current_bind_apply, change_bind_apply]
  cases d.make (Path.ofText folderName) with
  | error e => rfl
  | ok d₁ =>
  dsimp only
  rw [current_bind_apply, change_bind_apply]
  cases d₁.make (place file).parent with
  | error e => rfl
  | ok d₂ =>
  dsimp only
  rw [current_bind_apply]
  cases d₂.openFile (place file).text <;> rfl

/-- **Saving.** A document that can be written is saved whole, or no file has changed. -/
theorem save_spec {v : Value} {t : Text} (written : Json.write v = .ok t) (file : Text)
    (d : Folder) :
    ((save v (.text file) (.text folderName) true d).outcome = .ok (place file).text ∧
      ∃ spot, Saved d (save v (.text file) (.text folderName) true d).state (place file).text
        (Utf8.encode t) spot) ∨
    (∃ e, (save v (.text file) (.text folderName) true d).outcome = .error e) ∧
      (save v (.text file) (.text folderName) true d).state.files = d.files := by
  rw [save_apply written]
  cases base : d.make (Path.ofText folderName) with
  | error e => exact Or.inr ⟨⟨e, rfl⟩, rfl⟩
  | ok d₁ =>
  dsimp only
  cases parent : d₁.make (place file).parent with
  | error e => exact Or.inr ⟨⟨e, rfl⟩, Folder.files_make base⟩
  | ok d₂ =>
  dsimp only
  have same : d₂.files = d.files := (Folder.files_make parent).trans (Folder.files_make base)
  cases opened : d₂.openFile (place file).text with
  | error e => exact Or.inr ⟨⟨e, rfl⟩, same⟩
  | ok fill =>
    obtain ⟨spot, found, opened⟩ := bind_eq_ok.mp opened
    split at opened
    · cases opened
    · cases opened
      refine Or.inl ⟨rfl, spot, Folder.find_store _ found, ?_, ?_⟩
      · rw [Folder.file?_store, if_pos rfl]
      · intro other differs
        rw [Folder.file?_store, if_neg differs, Folder.file?, same]
        rfl

end Saving

end ProofGate
