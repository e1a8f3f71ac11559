import ProofGate.Handles
import ProofGate.Proofs.Letters
import ProofGate.Proofs.Resource
import ProofGate.Proofs.Value

/-!
# One request

A request for a handle gives the one that is held for its connection, its address in small letters
and its interface, or makes it, or fails and changes nothing but the interfaces loaded. Which of
these it is does not depend on what is loaded, for what is kept under a name is what the name leads
to. A request for a connection gives the one there is for the chain, or opens it, or fails.
-/

namespace ProofGate

/-! ## Interfaces kept -/

namespace Resource

variable {i : Installation} {cache : Cache}

/-- What is kept for a name is the interface that the name leads to. -/
def Sound (i : Installation) (cache : Cache) : Prop :=
  ∀ name v, cache.lookup (key name) = some v → readInterface i name = .ok v

theorem sound_nil (i : Installation) : Sound i [] :=
  fun _ _ kept => nomatch kept

theorem readInterface_of_key {name name' : Value} (same : key name = key name') :
    readInterface i name = readInterface i name' := by
  rw [readInterface, readInterface, List.append_cancel_left same]

/-- Keeping interfaces does not show. -/
theorem Sound.interface (sound : Sound i cache) (name : Value) : ∃ cache', Sound i cache' ∧
    interface i cache name = (readInterface i name).map fun v => (v, cache') := by
  rw [Resource.interface]
  cases kept : cache.lookup (key name) with
  | some v => exact ⟨cache, sound, by rw [sound name v kept]; rfl⟩
  | none =>
    cases read : readInterface i name with
    | error e => exact ⟨cache, sound, rfl⟩
    | ok v =>
      refine ⟨cache ++ [(key name, v)], fun name' w found => ?_, rfl⟩
      rw [List.lookup_append, Option.or_eq_some_iff] at found
      rcases found with old | ⟨-, new⟩
      · exact sound name' w old
      · rw [List.lookup_cons] at new
        cases same : key name' == key name with
        | true =>
          rw [same] at new
          cases new
          rw [readInterface_of_key (beq_iff_eq.mp same), read]
        | false =>
          rw [same] at new
          cases new

end Resource

namespace Handles

open Resource (Installation Sound readInterface)

/-- What a handle is for: the position of a connection, an address in small letters and the name of
an interface. -/
@[ext]
structure Purpose where
  position : ℕ
  address : Text
  name : Text
deriving DecidableEq

def purpose (position : ℕ) (address name : Text) : Purpose :=
  ⟨position, Text.lower address, name⟩

/-- The handle there is for a purpose. -/
def held (h : Handles) (w : Purpose) : Option Handle :=
  h.connections[w.position]?.bind fun c => c.handle? (.text w.address) (.text w.name)

variable {s : Settings} {i : Installation} {h : Handles}

/-! ## Handles -/

/-- What a request for a handle comes to. -/
inductive Requested (i : Installation) (h : Handles) (w : Purpose) :
    Except Failure Handle × Handles → Prop
  | kept {g : Handle} (known : h.held w = some g) : Requested i h w (.ok g, h)
  | made {c : Connection} {a : Address} {v : Value} {cache : Resource.Cache}
      (unknown : h.held w = .none) (there : h.connections[w.position]? = some c)
      (spelled : Address.ofText? w.address = some a) (read : readInterface i (.text w.name) = .ok v)
      (sound : Sound i cache) :
      Requested i h w (.ok ⟨h.made, a, v⟩,
        { connections := h.connections.set w.position
            { c with handles := c.handles ++ [(.text w.address, .text w.name, ⟨h.made, a, v⟩)] }
          made := h.made + 1
          interfaces := cache })
  | refused {e : Failure} {cache : Resource.Cache} (unknown : h.held w = .none)
      (why : h.connections[w.position]? = .none ∨ Address.ofText? w.address = .none ∨
        ∃ e, readInterface i (.text w.name) = .error e)
      (sound : Sound i cache) : Requested i h w (.error e, { h with interfaces := cache })

theorem contract_text (h : Handles) (i : Installation) (position : ℕ) (address name : Text) :
    h.contract i position (.text address) (.text name) =
      match h.connections[position]? with
      | .none => (.error .inputIndex, h)
      | some c =>
        match c.handle? (.text (Text.lower address)) (.text name) with
        | some g => (.ok g, h)
        | .none => h.make i position c (.text (Text.lower address)) (.text name) :=
  rfl

/-- The interface is looked for first, so it stays loaded if the text is then no address. -/
theorem requested_make (sound : Sound i h.interfaces) {position : ℕ} {c : Connection}
    {address name : Text} (unknown : h.held (purpose position address name) = .none)
    (there : h.connections[position]? = some c) :
    Requested i h (purpose position address name)
      (h.make i position c (.text (Text.lower address)) (.text name)) := by
  obtain ⟨cache, kept, loaded⟩ := sound.interface (.text name)
  rw [make, loaded]
  cases read : readInterface i (.text name) with
  | error e => exact .refused unknown (Or.inr (Or.inr ⟨e, read⟩)) sound
  | ok v =>
    rw [map_ok]
    dsimp only
    cases normal : Address.normalize (.text (Text.lower address)) with
    | ok a => exact .made unknown there (Address.normalizeText_eq_ok_iff.mp normal) read kept
    | error e =>
      have misspelled : Address.ofText? (Text.lower address) = .none := by
        refine Option.eq_none_iff_forall_ne_some.mpr fun a spelled => ?_
        exact nomatch normal.symm.trans (Address.normalizeText_eq_ok_iff.mpr spelled)
      exact .refused unknown (Or.inr (Or.inl misspelled)) kept

theorem requested (sound : Sound i h.interfaces) (position : ℕ) (address name : Text) :
    Requested i h (purpose position address name)
      (h.contract i position (.text address) (.text name)) := by
  rw [contract_text]
  cases there : h.connections[position]? with
  | none =>
    have unknown : h.held (purpose position address name) = .none := by
      rw [held, purpose, there]
      rfl
    exact .refused unknown (Or.inl there) sound
  | some c =>
    have same : h.held (purpose position address name) =
        c.handle? (.text (Text.lower address)) (.text name) := by
      rw [held, purpose, there]
      rfl
    dsimp only
    cases known : c.handle? (.text (Text.lower address)) (.text name) with
    | some g => exact .kept (same.trans known)
    | none => exact requested_make sound (same.trans known) there

/-! ## What is held afterwards -/

theorem handle?_concat (c : Connection) (address name address' name' : Text) (g : Handle) :
    ({ c with handles := c.handles ++ [(.text address, .text name, g)] } : Connection).handle?
        (.text address') (.text name') =
      (c.handle? (.text address') (.text name')).or
        (if address = address' ∧ name = name' then some g else .none) := by
  rw [Connection.handle?, Connection.handle?, List.find?_append, List.find?_singleton]
  simp only [Value.sameKey_text, Bool.and_eq_true, beq_iff_eq]
  cases c.handles.find? _ with
  | some known => rfl
  | none => split <;> rfl

/-- Making a handle adds it under its own purpose and leaves the others. -/
theorem held_made {w : Purpose} {c : Connection} (unknown : h.held w = .none)
    (there : h.connections[w.position]? = some c) (g : Handle) (made : ℕ) (cache : Resource.Cache)
    (w' : Purpose) :
    held ⟨h.connections.set w.position
      { c with handles := c.handles ++ [(.text w.address, .text w.name, g)] }, made, cache⟩ w' =
      if w' = w then some g else h.held w' := by
  have inside := (List.getElem?_eq_some_iff.mp there).1
  rw [held, held]
  by_cases here : w.position = w'.position
  · rw [← here, List.getElem?_set_self inside, there, Option.bind_some, Option.bind_some,
      handle?_concat]
    by_cases same : w' = w
    · subst same
      rw [held, there, Option.bind_some] at unknown
      rw [unknown, if_pos ⟨rfl, rfl⟩, if_pos rfl]
      rfl
    · have apart : ¬ (w.address = w'.address ∧ w.name = w'.name) := by
        rintro ⟨address, name⟩
        cases w
        cases w'
        simp_all
      rw [if_neg apart, if_neg same, Option.or_none]
  · have other : w' ≠ w := fun same => here (same ▸ rfl)
    rw [List.getElem?_set_ne here, if_neg other]

/-- Everything but the interfaces loaded. -/
def forget (h : Handles) : Handles :=
  { h with interfaces := [] }

theorem make_forget (sound : Sound i h.interfaces) (position : ℕ) (c : Connection)
    (address name : Value) :
    (h.make i position c address name).1 = (h.forget.make i position c address name).1 ∧
      (h.make i position c address name).2.forget =
        (h.forget.make i position c address name).2.forget := by
  obtain ⟨cache, -, loaded⟩ := sound.interface name
  obtain ⟨cache', -, reloaded⟩ := (Resource.sound_nil i).interface name
  rw [make, make, loaded, show h.forget.interfaces = [] from rfl, reloaded]
  cases readInterface i name with
  | error e => exact ⟨rfl, rfl⟩
  | ok v =>
    simp only [map_ok]
    cases Address.normalize address with
    | error e => exact ⟨rfl, rfl⟩
    | ok a => exact ⟨rfl, rfl⟩

/-- **What is loaded does not show**: neither in what a request comes to nor in what it leaves. -/
theorem contract_forget (sound : Sound i h.interfaces) (position : ℕ) (address name : Value) :
    (h.contract i position address name).1 = (h.forget.contract i position address name).1 ∧
      (h.contract i position address name).2.forget =
        (h.forget.contract i position address name).2.forget := by
  rw [contract, contract, show h.forget.connections = h.connections from rfl]
  split
  · exact ⟨rfl, rfl⟩
  split
  · exact ⟨rfl, rfl⟩
  split
  · exact ⟨rfl, rfl⟩
  split
  · exact ⟨rfl, rfl⟩
  · exact make_forget sound ..

/-! ## Connections -/

/-- What a request for a connection comes to. -/
inductive Connected (s : Settings) (h : Handles) (chain : Value) :
    Except Failure (ℕ × Handles) → Prop
  | known {position : ℕ}
      (first : h.connections.findIdx? (fun c => c.chain.sameKey chain) = some position) :
      Connected s h chain (.ok (position, h))
  | opened {url : Value}
      (unknown : h.connections.findIdx? (fun c => c.chain.sameKey chain) = .none)
      (found : s.endpoint chain = .ok url) :
      Connected s h chain
        (.ok (h.connections.length, { h with connections := h.connections ++ [⟨chain, url, []⟩] }))
  | refused {e : Failure} : Connected s h chain (.error e)

theorem connected (h : Handles) (s : Settings) (chain : Value) :
    Connected s h chain (h.connect s chain) := by
  rw [connect]
  split
  · exact .refused
  split
  · next first => exact .known first
  · next unknown =>
    cases found : s.endpoint chain with
    | error e => exact .refused
    | ok url => exact .opened unknown found

end Handles

end ProofGate
