import Mathlib.Data.Finset.Card
import Mathlib.Data.List.Induction
import ProofGate.Proofs.Handles

/-!
# A history of requests

Connections and handles are asked for one after the other, and some requests fail. Whatever the
history, there is one handle for each connection, address in small letters and interface that was
granted, it is for the address and interface of every request that it was given to, and there is one
connection for each chain. A request that fails leaves no trace in what is given later.
-/

namespace ProofGate

namespace Handles

open Resource (Installation Sound readInterface)

/-- What is asked for: the connection to a chain, or the handle for a contract on a connection. -/
inductive Ask where
  | connection (chain : Value)
  | contract (position : ℕ) (address name : Text)

/-- What is given: the position of a connection, or a handle. -/
inductive Grant where
  | connection (position : ℕ)
  | contract (handle : Handle)

/-- The answer to a request for a connection, which changes nothing if it fails. -/
def connectionAnswer (h : Handles) : Except Failure (ℕ × Handles) → Except Failure Grant × Handles
  | .ok (position, h') => (.ok (.connection position), h')
  | .error e => (.error e, h)

def contractAnswer : Except Failure Handle × Handles → Except Failure Grant × Handles
  | (outcome, h) => (outcome.map .contract, h)

/-- The answer to a request, and the handles afterwards. -/
def answer (s : Settings) (i : Installation) (h : Handles) : Ask → Except Failure Grant × Handles
  | .connection chain => connectionAnswer h (h.connect s chain)
  | .contract position address name =>
    contractAnswer (h.contract i position (.text address) (.text name))

/-- The handles after a row of requests. -/
def after (s : Settings) (i : Installation) (h : Handles) (asks : List Ask) : Handles :=
  asks.foldl (fun h ask => (answer s i h ask).2) h

abbrev Record := List (Ask × Except Failure Grant)

/-- A row of requests with their answers. -/
def record (s : Settings) (i : Installation) : Handles → List Ask → Record
  | _, [] => []
  | h, ask :: asks => (ask, (answer s i h ask).1) :: record s i (answer s i h ask).2 asks

/-- The purpose that a handle was given for. -/
def purpose? : Ask × Except Failure Grant → Option Purpose
  | (.contract position address name, .ok (.contract _)) => some (purpose position address name)
  | _ => .none

def purposes (r : Record) : List Purpose :=
  r.filterMap purpose?

/-- The chains that there are connections to, with their nodes. -/
def services (h : Handles) : List (Value × Value) :=
  h.connections.map fun c => (c.chain, c.endpoint)

variable {s : Settings} {i : Installation} {h h' : Handles} {r : Record}

theorem record_concat (s : Settings) (i : Installation) (h : Handles) (asks : List Ask) (ask : Ask) :
    record s i h (asks ++ [ask]) =
      record s i h asks ++ [(ask, (answer s i (after s i h asks) ask).1)] := by
  induction asks generalizing h with
  | nil => rfl
  | cons first asks ih => exact congrArg (_ :: ·) (ih _)

theorem after_concat (s : Settings) (i : Installation) (h : Handles) (asks : List Ask) (ask : Ask) :
    after s i h (asks ++ [ask]) = (answer s i (after s i h asks) ask).2 :=
  List.foldl_concat ..

/-! ## Handles kept -/

/-- What is true of the handles after a history with a record. -/
structure Kept (i : Installation) (h : Handles) (r : Record) : Prop where
  /-- Interfaces are kept for the names that lead to them. -/
  sound : Sound i h.interfaces
  /-- A handle is for the address and the interface of its purpose. -/
  own : ∀ w g, h.held w = some g → Address.ofText? w.address = some g.address ∧
    readInterface i (.text w.name) = .ok g.interface
  /-- A handle has one of the numbers that were given. -/
  numbered : ∀ w g, h.held w = some g → g.number < h.made
  /-- No number was given twice. -/
  apart : ∀ w w' g g', h.held w = some g → h.held w' = some g' → g.number = g'.number → w = w'
  /-- What was given is held. -/
  given : ∀ position address name g,
    (.contract position address name, .ok (.contract g)) ∈ r →
      h.held (purpose position address name) = some g
  /-- What is held was given. -/
  asked : ∀ w g, h.held w = some g → w ∈ purposes r
  /-- One handle was made for each purpose. -/
  made : h.made = (purposes r).toFinset.card

theorem kept_none (i : Installation) : Kept i none [] where
  sound := Resource.sound_nil i
  own _ _ known := nomatch known
  numbered _ _ known := nomatch known
  apart _ _ _ _ known := nomatch known
  given _ _ _ _ inside := nomatch inside
  asked _ _ known := nomatch known
  made := rfl

theorem exists_of_mem_purposes {w : Purpose} (asked : w ∈ purposes r) :
    ∃ position address name g, w = purpose position address name ∧
      (.contract position address name, .ok (.contract g)) ∈ r := by
  obtain ⟨x, inside, said⟩ := List.mem_filterMap.mp asked
  unfold purpose? at said
  split at said
  · next position address name g =>
    cases said
    exact ⟨position, address, name, g, rfl, inside⟩
  · cases said

theorem Kept.exists_held (kept : Kept i h r) {w : Purpose} (asked : w ∈ purposes r) :
    ∃ g, h.held w = some g := by
  obtain ⟨position, address, name, g, rfl, inside⟩ := exists_of_mem_purposes asked
  exact ⟨g, kept.given position address name g inside⟩

theorem purposes_concat_none {x : Ask × Except Failure Grant} (quiet : purpose? x = .none) :
    purposes (r ++ [x]) = purposes r := by
  rw [purposes, List.filterMap_append, List.filterMap_cons_none quiet, List.filterMap_nil,
    List.append_nil]
  rfl

theorem purposes_concat_some {x : Ask × Except Failure Grant} {w : Purpose}
    (said : purpose? x = some w) : purposes (r ++ [x]) = purposes r ++ [w] := by
  rw [purposes, List.filterMap_append, List.filterMap_cons_some said, List.filterMap_nil]
  rfl

theorem toFinset_purposes_concat {x : Ask × Except Failure Grant} {w : Purpose}
    (said : purpose? x = some w) :
    (purposes (r ++ [x])).toFinset = insert w (purposes r).toFinset := by
  rw [purposes_concat_some said, List.toFinset_append, List.toFinset_cons, List.toFinset_nil,
    insert_empty_eq, Finset.union_singleton]

/-- A request that gives no handle and leaves those that are held. -/
theorem Kept.quiet (kept : Kept i h r) {x : Ask × Except Failure Grant} (quiet : purpose? x = .none)
    (sound : Sound i h'.interfaces) (held : ∀ w, h'.held w = h.held w) (made : h'.made = h.made) :
    Kept i h' (r ++ [x]) where
  sound := sound
  own w g known := kept.own w g (held w ▸ known)
  numbered w g known := made ▸ kept.numbered w g (held w ▸ known)
  apart w w' g g' known known' := kept.apart w w' g g' (held w ▸ known) (held w' ▸ known')
  given position address name g inside := by
    rw [held]
    rcases List.mem_append.mp inside with old | new
    · exact kept.given position address name g old
    · rw [← List.mem_singleton.mp new] at quiet
      cases quiet
  asked w g known := by
    rw [purposes_concat_none quiet]
    exact kept.asked w g (held w ▸ known)
  made := by rw [made, purposes_concat_none quiet, kept.made]

section

variable {position : ℕ} {address name : Text} {g : Handle}

theorem mem_concat_contract {position' : ℕ} {address' name' : Text} {g' : Handle}
    (inside : (Ask.contract position' address' name', Except.ok (Grant.contract g')) ∈
      r ++ [(.contract position address name, .ok (.contract g))]) :
    (.contract position' address' name', .ok (.contract g')) ∈ r ∨
      purpose position' address' name' = purpose position address name ∧ g' = g := by
  rcases List.mem_append.mp inside with old | new
  · exact Or.inl old
  · cases List.mem_singleton.mp new
    exact Or.inr ⟨rfl, rfl⟩

/-- A request that gives a handle that is held. -/
theorem Kept.again (kept : Kept i h r) (known : h.held (purpose position address name) = some g) :
    Kept i h (r ++ [(.contract position address name, .ok (.contract g))]) where
  sound := kept.sound
  own := kept.own
  numbered := kept.numbered
  apart := kept.apart
  given position' address' name' g' inside := by
    rcases mem_concat_contract inside with old | ⟨same, rfl⟩
    · exact kept.given position' address' name' g' old
    · rw [same, known]
  asked w g known := by
    rw [purposes_concat_some rfl]
    exact List.mem_append_left _ (kept.asked w g known)
  made := by
    rw [toFinset_purposes_concat rfl,
      Finset.insert_eq_of_mem (List.mem_toFinset.mpr (kept.asked _ g known)), kept.made]

/-- A request that gives a new handle. -/
theorem Kept.fresh (kept : Kept i h r) (unknown : h.held (purpose position address name) = .none)
    (held : ∀ w, h'.held w = if w = purpose position address name then some g else h.held w)
    (spelled : Address.ofText? (Text.lower address) = some g.address)
    (read : readInterface i (.text name) = .ok g.interface) (number : g.number = h.made)
    (made : h'.made = h.made + 1) (sound : Sound i h'.interfaces) :
    Kept i h' (r ++ [(.contract position address name, .ok (.contract g))]) := by
  have either {w : Purpose} {g' : Handle} (known : h'.held w = some g') :
      w = purpose position address name ∧ g' = g ∨ h.held w = some g' := by
    rw [held] at known
    split at known
    · next same =>
      cases known
      exact Or.inl ⟨same, rfl⟩
    · exact Or.inr known
  refine ⟨sound, ?own, ?numbered, ?apart, ?given, ?asked, ?made⟩
  case own =>
    intro w g' known
    rcases either known with ⟨rfl, rfl⟩ | old
    · exact ⟨spelled, read⟩
    · exact kept.own w g' old
  case numbered =>
    intro w g' known
    rcases either known with ⟨-, rfl⟩ | old
    · omega
    · have := kept.numbered w g' old
      omega
  case apart =>
    intro w w' g₁ g₂ known known' same
    -- the new number is above all others
    rcases either known with ⟨rfl, rfl⟩ | old
    · rcases either known' with ⟨rfl, rfl⟩ | old'
      · rfl
      · have := kept.numbered w' g₂ old'
        omega
    · rcases either known' with ⟨rfl, rfl⟩ | old'
      · have := kept.numbered w g₁ old
        omega
      · exact kept.apart w w' g₁ g₂ old old' same
  case given =>
    intro position' address' name' g' inside
    rw [held]
    rcases mem_concat_contract inside with old | ⟨same, rfl⟩
    · have known := kept.given position' address' name' g' old
      rw [if_neg, known]
      intro same
      rw [same, unknown] at known
      cases known
    · rw [if_pos same]
  case asked =>
    intro w g' known
    rw [purposes_concat_some rfl, List.mem_append, List.mem_singleton]
    rcases either known with ⟨same, -⟩ | old
    · exact Or.inr same
    · exact Or.inl (kept.asked w g' old)
  case made =>
    have absent : purpose position address name ∉ (purposes r).toFinset := by
      rw [List.mem_toFinset]
      intro asked
      obtain ⟨g', known⟩ := kept.exists_held asked
      exact nomatch unknown.symm.trans known
    rw [toFinset_purposes_concat rfl, Finset.card_insert_of_notMem absent, made, kept.made]

theorem Kept.contract (kept : Kept i h r) {outcome : Except Failure Handle × Handles}
    (requested : Requested i h (purpose position address name) outcome) :
    Kept i (contractAnswer outcome).2
      (r ++ [(.contract position address name, (contractAnswer outcome).1)]) := by
  cases requested with
  | kept known => exact kept.again known
  | made unknown there spelled read sound =>
    exact kept.fresh unknown (held_made unknown there _ _ _) spelled read rfl rfl sound
  | refused unknown why sound => exact kept.quiet rfl sound (fun _ => rfl) rfl

end

/-- Nothing is held on a new connection. -/
theorem held_opened (h : Handles) (chain url : Value) (w : Purpose) :
    held { h with connections := h.connections ++ [⟨chain, url, []⟩] } w = h.held w := by
  rw [held, held]
  by_cases inside : w.position < h.connections.length
  · rw [List.getElem?_append_left inside]
  · rw [List.getElem?_append_right (Nat.le_of_not_lt inside),
      List.getElem?_eq_none (Nat.le_of_not_lt inside), Option.bind_none, Option.bind_eq_none_iff]
    intro c last
    obtain rfl := List.mem_singleton.mp (List.mem_of_getElem? last)
    rfl

theorem Kept.connection (kept : Kept i h r) {chain : Value}
    {outcome : Except Failure (ℕ × Handles)} (connected : Connected s h chain outcome) :
    Kept i (connectionAnswer h outcome).2
      (r ++ [(.connection chain, (connectionAnswer h outcome).1)]) := by
  cases connected with
  | known first => exact kept.quiet rfl kept.sound (fun _ => rfl) rfl
  | opened unknown found => exact kept.quiet rfl kept.sound (held_opened h chain _) rfl
  | refused => exact kept.quiet rfl kept.sound (fun _ => rfl) rfl

theorem Kept.answered (kept : Kept i h r) (s : Settings) (ask : Ask) :
    Kept i (answer s i h ask).2 (r ++ [(ask, (answer s i h ask).1)]) := by
  cases ask with
  | connection chain => exact kept.connection (connected h s chain)
  | contract position address name =>
    exact kept.contract (requested kept.sound position address name)

/-! ## Connections kept -/

/-- What is true of the connections after a history with a record. -/
structure Served (s : Settings) (h : Handles) (r : Record) : Prop where
  /-- No two connections are to one chain. -/
  chains : h.services.Pairwise fun c d => ¬ c.1.sameKey d.1 = true
  /-- A connection is to the node that is set for its chain. -/
  endpoints : ∀ c ∈ h.services, s.endpoint c.1 = .ok c.2
  /-- The connection that was given for a chain is the first one to it. -/
  first : ∀ chain position, chain.Discrete → (.connection chain, .ok (.connection position)) ∈ r →
    h.services.findIdx? (fun c => c.1.sameKey chain) = some position

theorem served_none (s : Settings) : Served s none [] where
  chains := .nil
  endpoints _ inside := nomatch inside
  first _ _ _ inside := nomatch inside

theorem findIdx?_services (h : Handles) (chain : Value) :
    h.connections.findIdx? (fun c => c.chain.sameKey chain) =
      h.services.findIdx? (fun c => c.1.sameKey chain) := by
  rw [services, List.findIdx?_map]
  rfl

/-- Handles are made on connections as they are. -/
theorem services_contract {w : Purpose} {outcome : Except Failure Handle × Handles}
    (requested : Requested i h w outcome) : (contractAnswer outcome).2.services = h.services := by
  cases requested with
  | kept known => rfl
  | refused unknown why sound => rfl
  | @made c a v cache unknown there spelled read sound =>
    obtain ⟨inside, rfl⟩ := List.getElem?_eq_some_iff.mp there
    have bound : w.position < (h.connections.map fun c => (c.chain, c.endpoint)).length := by
      rwa [List.length_map]
    show List.map _ (List.set ..) = h.services
    rw [List.map_set]
    exact (congrArg _ (List.getElem_map _).symm).trans (List.set_getElem_self bound)

/-- A request that gives no connection and leaves those there are. -/
theorem Served.quiet (served : Served s h r) {x : Ask × Except Failure Grant}
    (quiet : ∀ chain position, x ≠ (.connection chain, .ok (.connection position)))
    (same : h'.services = h.services) : Served s h' (r ++ [x]) where
  chains := by rw [same]; exact served.chains
  endpoints := by rw [same]; exact served.endpoints
  first chain position discrete inside := by
    rw [same]
    rcases List.mem_append.mp inside with old | new
    · exact served.first chain position discrete old
    · exact absurd (List.mem_singleton.mp new).symm (quiet chain position)

/-- A request that gives the first connection to a chain. -/
theorem Served.again (served : Served s h r) {chain : Value} {position : ℕ}
    (first : h.services.findIdx? (fun c => c.1.sameKey chain) = some position) :
    Served s h (r ++ [(.connection chain, .ok (.connection position))]) where
  chains := served.chains
  endpoints := served.endpoints
  first chain' position' discrete inside := by
    rcases List.mem_append.mp inside with old | new
    · exact served.first chain' position' discrete old
    · cases List.mem_singleton.mp new
      exact first

/-- A request that gives a new connection. -/
theorem Served.opened (served : Served s h r) {chain url : Value}
    (unknown : h.services.findIdx? (fun c => c.1.sameKey chain) = .none)
    (found : s.endpoint chain = .ok url) (more : h'.services = h.services ++ [(chain, url)]) :
    Served s h' (r ++ [(.connection chain, .ok (.connection h.services.length))]) where
  chains := by
    have other : ∀ c ∈ h.services, ¬ c.1.sameKey chain = true := fun c inside =>
      Bool.eq_false_iff.mp (List.findIdx?_eq_none_iff.mp unknown c inside)
    rw [more, List.pairwise_append]
    exact ⟨served.chains, List.pairwise_singleton .., fun c inside d last =>
      List.mem_singleton.mp last ▸ other c inside⟩
  endpoints := by
    rw [more, List.forall_mem_append, List.forall_mem_singleton]
    exact ⟨served.endpoints, found⟩
  first chain' position' discrete inside := by
    rw [more, List.findIdx?_append]
    rcases List.mem_append.mp inside with old | new
    · rw [served.first chain' position' discrete old]
      rfl
    · cases List.mem_singleton.mp new
      have self : chain.sameKey chain = true := (discrete.sameKey_iff chain).mpr rfl
      rw [unknown, List.findIdx?_singleton, if_pos self, Option.none_or, Option.map_some, Nat.zero_add]

theorem Served.connection (served : Served s h r) {chain : Value}
    {outcome : Except Failure (ℕ × Handles)} (connected : Connected s h chain outcome) :
    Served s (connectionAnswer h outcome).2
      (r ++ [(.connection chain, (connectionAnswer h outcome).1)]) := by
  cases connected with
  | refused => exact served.quiet (fun _ _ same => nomatch congrArg Prod.snd same) rfl
  | known first => exact served.again (findIdx?_services h chain ▸ first)
  | opened unknown found =>
    have count : h.connections.length = h.services.length := (List.length_map _).symm
    rw [connectionAnswer, count]
    exact served.opened (findIdx?_services h chain ▸ unknown) found (List.map_append ..)

theorem Served.answered (served : Served s h r) (sound : Sound i h.interfaces) (ask : Ask) :
    Served s (answer s i h ask).2 (r ++ [(ask, (answer s i h ask).1)]) := by
  cases ask with
  | connection chain => exact served.connection (connected h s chain)
  | contract position address name =>
    exact served.quiet (fun _ _ same => nomatch same)
      (services_contract (requested sound position address name))

/-- **A history is accounted for**, in the handles as in the connections that it leaves. -/
theorem kept_and_served (s : Settings) (i : Installation) (asks : List Ask) :
    Kept i (after s i none asks) (record s i none asks) ∧
      Served s (after s i none asks) (record s i none asks) := by
  induction asks using List.reverseRecOn with
  | nil => exact ⟨kept_none i, served_none s⟩
  | append_singleton asks ask ih =>
    obtain ⟨kept, served⟩ := ih
    rw [after_concat, record_concat]
    exact ⟨kept.answered s ask, served.answered kept.sound ask⟩

/-! ## Requests that fail -/

theorem connect_forget (h : Handles) (s : Settings) (chain : Value) :
    (connectionAnswer h (h.connect s chain)).1 =
        (connectionAnswer h.forget (h.forget.connect s chain)).1 ∧
      (connectionAnswer h (h.connect s chain)).2.forget =
        (connectionAnswer h.forget (h.forget.connect s chain)).2.forget := by
  rw [connect, connect, show h.forget.connections = h.connections from rfl]
  cases chain.canBeKey with
  | false => exact ⟨rfl, rfl⟩
  | true =>
    cases h.connections.findIdx? fun c => c.chain.sameKey chain with
    | some position => exact ⟨rfl, rfl⟩
    | none =>
      cases s.endpoint chain with
      | error e => exact ⟨rfl, rfl⟩
      | ok url => exact ⟨rfl, rfl⟩

theorem answer_forget (s : Settings) (sound : Sound i h.interfaces) (ask : Ask) :
    (answer s i h ask).1 = (answer s i h.forget ask).1 ∧
      (answer s i h ask).2.forget = (answer s i h.forget ask).2.forget := by
  cases ask with
  | connection chain => exact connect_forget h s chain
  | contract position address name =>
    obtain ⟨same, left⟩ := contract_forget sound position (.text address) (.text name)
    exact ⟨congrArg (Except.map Grant.contract) same, left⟩

/-- What is loaded shows in no later answer. -/
theorem record_forget {r' : Record} (s : Settings) (asks : List Ask) (kept : Kept i h r)
    (kept' : Kept i h' r') (same : h.forget = h'.forget) :
    record s i h asks = record s i h' asks := by
  induction asks generalizing h h' r r' with
  | nil => rfl
  | cons ask asks ih =>
    obtain ⟨answered, left⟩ := answer_forget s kept.sound ask
    obtain ⟨answered', left'⟩ := answer_forget s kept'.sound ask
    rw [record, record, answered, answered', same,
      ih (kept.answered s ask) (kept'.answered s ask) (by rw [left, left', same])]

/-- A request that fails leaves everything but the interfaces loaded. -/
theorem forget_of_error (s : Settings) (sound : Sound i h.interfaces) {ask : Ask} {e : Failure}
    (failed : (answer s i h ask).1 = .error e) : (answer s i h ask).2.forget = h.forget := by
  cases ask with
  | connection chain =>
    have connected := connected h s chain
    rw [answer] at failed ⊢
    generalize h.connect s chain = outcome at connected failed ⊢
    cases connected with
    | refused => rfl
    | known | opened => cases failed
  | contract position address name =>
    have requested := requested sound position address name
    rw [answer] at failed ⊢
    generalize h.contract i position (.text address) (.text name) = outcome at requested failed ⊢
    cases requested with
    | kept | made => cases failed
    | refused => rfl

/-! ## Requests that succeed -/

theorem exists_ofText_iff {t : Text} :
    (∃ a, Address.ofText? t = some a) ↔ ∃ n, Address.Writes n (.text t) := by
  constructor
  · rintro ⟨a, spelled⟩
    exact ⟨_, Address.ofText_eq_some_iff.mp spelled⟩
  · rintro ⟨n, writes⟩
    obtain ⟨a, rfl⟩ := writes.exists_address
    exact ⟨a, Address.ofText_eq_some_iff.mpr writes⟩

/-- A handle is given exactly if there is the connection, the text is an address, and there is the
interface. -/
theorem Kept.isOk_iff (kept : Kept i h r) (s : Settings) (position : ℕ) (address name : Text) :
    (∃ g, (answer s i h (.contract position address name)).1 = .ok g) ↔
      position < h.services.length ∧ (∃ n, Address.Writes n (.text address)) ∧
        ∃ v, readInterface i (.text name) = .ok v := by
  have requested := requested kept.sound position address name
  have count : h.services.length = h.connections.length := List.length_map _
  rw [answer, count, ← exists_ofText_iff, ← Address.ofText_lower]
  generalize h.contract i position (.text address) (.text name) = outcome at requested ⊢
  cases requested with
  | @kept g known =>
    obtain ⟨spelled, read⟩ := kept.own _ g known
    obtain ⟨c, there, -⟩ := Option.bind_eq_some_iff.mp known
    have inside := (List.getElem?_eq_some_iff.mp there).1
    exact ⟨fun _ => ⟨inside, ⟨_, spelled⟩, _, read⟩, fun _ => ⟨_, rfl⟩⟩
  | made unknown there spelled read sound =>
    have inside := (List.getElem?_eq_some_iff.mp there).1
    exact ⟨fun _ => ⟨inside, ⟨_, spelled⟩, _, read⟩, fun _ => ⟨_, rfl⟩⟩
  | @refused e cache unknown why sound =>
    constructor
    · rintro ⟨g, ⟨⟩⟩
    · rintro ⟨inside, ⟨a, spelled⟩, v, read⟩
      rcases why with absent | misspelled | ⟨e, unread⟩
      · exact absurd inside (Nat.not_lt.mpr (List.getElem?_eq_none_iff.mp absent))
      · exact nomatch misspelled.symm.trans spelled
      · exact nomatch unread.symm.trans read

/-! ## Transparency -/

/-- What callers see of the handles and the connections that are kept. -/
structure Transparent (s : Settings) (i : Installation) (h : Handles) (r : Record) : Prop where
  /-- A handle is for the address and the interface that were asked for. -/
  own : ∀ {position address name g}, (.contract position address name, .ok (.contract g)) ∈ r →
    Address.Writes g.address.bits.toNat (.text address) ∧
      readInterface i (.text name) = .ok g.interface
  /-- Two requests are given one handle exactly if they have one purpose. -/
  one : ∀ {position address name g position' address' name' g'},
    (.contract position address name, .ok (.contract g)) ∈ r →
    (.contract position' address' name', .ok (.contract g')) ∈ r →
      (g.number = g'.number ↔ purpose position address name = purpose position' address' name') ∧
      (g.number = g'.number → g = g')
  /-- There are as many handles as purposes. -/
  made : h.made = (purposes r).toFinset.card
  /-- Every proper request is given a handle. -/
  given : ∀ position address name,
    (∃ g, (answer s i h (.contract position address name)).1 = .ok g) ↔
      position < h.services.length ∧ (∃ n, Address.Writes n (.text address)) ∧
        ∃ v, readInterface i (.text name) = .ok v
  /-- A request that fails registers nothing and is not felt later. -/
  refused : ∀ {ask e}, (answer s i h ask).1 = .error e →
    (answer s i h ask).2.connections = h.connections ∧ (answer s i h ask).2.made = h.made ∧
      ∀ later, record s i (answer s i h ask).2 later = record s i h later
  /-- No two connections are to one chain. -/
  chains : h.services.Pairwise fun c d => ¬ c.1.sameKey d.1 = true
  /-- A connection is to the chain that was asked for, by the node that is set for it. -/
  served : ∀ {chain position}, chain.Discrete → (.connection chain, .ok (.connection position)) ∈ r →
    ∃ c, h.services[position]? = some c ∧ c.1.keyed? = chain.keyed? ∧ s.endpoint c.1 = .ok c.2
  /-- Two requests are given one connection exactly if they are for one chain. -/
  alike : ∀ {chain position chain' position'}, chain.Discrete → chain'.Discrete →
    (.connection chain, .ok (.connection position)) ∈ r →
    (.connection chain', .ok (.connection position')) ∈ r →
      (position = position' ↔ chain.keyed? = chain'.keyed?)

theorem Served.exists_service (served : Served s h r) {chain : Value} {position : ℕ}
    (discrete : chain.Discrete) (inside : (.connection chain, .ok (.connection position)) ∈ r) :
    ∃ c, h.services[position]? = some c ∧ c.1.keyed? = chain.keyed? ∧ s.endpoint c.1 = .ok c.2 := by
  obtain ⟨bound, same, -⟩ := List.findIdx?_eq_some_iff_getElem.mp
    (served.first chain position discrete inside)
  refine ⟨h.services[position], List.getElem?_eq_getElem bound, ?_,
    served.endpoints _ (List.getElem_mem bound)⟩
  rw [discrete.sameKey_comm, discrete.sameKey_iff] at same
  exact same.symm

/-- **Keeping handles is transparent**, whatever is asked for and in whichever order. -/
theorem after_transparent (s : Settings) (i : Installation) (asks : List Ask) :
    Transparent s i (after s i none asks) (record s i none asks) := by
  obtain ⟨kept, served⟩ := kept_and_served s i asks
  refine ⟨?own, ?one, kept.made, kept.isOk_iff s, ?refused, served.chains, served.exists_service,
    ?alike⟩
  case own =>
    intro position address name g inside
    obtain ⟨spelled, read⟩ := kept.own _ g (kept.given position address name g inside)
    have writes : Address.ofText? address = some g.address := Address.ofText_lower address ▸ spelled
    exact ⟨Address.ofText_eq_some_iff.mp writes, read⟩
  case one =>
    intro position address name g position' address' name' g' inside inside'
    have known := kept.given position address name g inside
    have known' := kept.given position' address' name' g' inside'
    have again (same : purpose position address name = purpose position' address' name') : g = g' :=
      Option.some.inj (by rw [← known, ← known', same])
    have purposes : g.number = g'.number → purpose position address name =
        purpose position' address' name' := kept.apart _ _ g g' known known'
    exact ⟨⟨purposes, fun same => congrArg Handle.number (again same)⟩, fun same => again (purposes same)⟩
  case refused =>
    intro ask e failed
    have left := forget_of_error s kept.sound failed
    have connections := congrArg Handles.connections left
    have made := congrArg Handles.made left
    exact ⟨connections, made, fun later => record_forget s later (kept.answered s ask) kept left⟩
  case alike =>
    intro chain position chain' position' discrete discrete' inside inside'
    constructor
    · rintro rfl
      obtain ⟨c, there, same, -⟩ := served.exists_service discrete inside
      obtain ⟨c', there', same', -⟩ := served.exists_service discrete' inside'
      cases there.symm.trans there'
      exact same.symm.trans same'
    · intro same
      -- both are the first connection that answers to this key
      have key : (fun c : Value × Value => c.1.sameKey chain) = fun c => c.1.sameKey chain' := by
        funext c
        rw [Bool.eq_iff_iff, discrete.sameKey_comm, discrete'.sameKey_comm, discrete.sameKey_iff,
          discrete'.sameKey_iff, same]
      have first := served.first chain position discrete inside
      rw [key] at first
      exact Option.some.inj (first.symm.trans (served.first chain' position' discrete' inside'))

/-- Requests that fail, for want of a connection, an interface, an address and a chain, lie before and
between two that are given one handle. -/
theorem after_transparent_sample :
    let s : Settings := { Settings.blank with endpoints := [(1, .text "http://localhost")] }
    let i := Resource.packaged ["opt"] (by decide)
    let small : Text := "0xabcdefabcdefabcdefabcdefabcdefabcdefabcd"
    let asks : List Ask := [.contract 0 small "groth16_verifier", .connection (.int 1),
      .contract 0 "0xABCDEFABCDEFABCDEFABCDEFABCDEFABCDEFABCD" "groth16_verifier",
      .contract 0 small "missing", .contract 0 "0x12" "groth16_verifier", .connection (.int 5),
      .contract 0 small "groth16_verifier"]
    (record s i none asks).map (fun x => x.2.isOk) =
        [false, true, true, false, false, false, true] ∧
      purposes (record s i none asks) =
        [⟨0, small, "groth16_verifier"⟩, ⟨0, small, "groth16_verifier"⟩] ∧
      (after s i none asks).made = 1 := by
  intro s i small asks
  have evaluated : (record s i none asks).map (fun x => x.2.isOk) =
        [false, true, true, false, false, false, true] ∧
      purposes (record s i none asks) =
        [⟨0, small, "groth16_verifier"⟩, ⟨0, small, "groth16_verifier"⟩] := by decide +kernel
  obtain ⟨outcomes, given⟩ := evaluated
  refine ⟨outcomes, given, ?_⟩
  rw [(after_transparent s i asks).made, given]
  decide

end Handles

end ProofGate
