import ProofGate.Proofs.Handles.History
import ProofGate.Proofs.Pairing

/-!
# Contracts opened by their handles

To open a contract is to ask for the connection to its chain and for its handle there. Whatever was
asked for before, it opens exactly if there is the connection, the text is an address and there is
the interface. A contract at a text that is none is never called and accepts nothing.
-/

namespace ProofGate

namespace Handles

open Resource (Installation readInterface)

variable {s : Settings} {i : Installation} {h : Handles}

/-- Handles that some history of requests leads to. -/
def Reached (s : Settings) (i : Installation) (h : Handles) : Prop :=
  ∃ asks, after s i none asks = h

theorem reached_none (s : Settings) (i : Installation) : Reached s i none :=
  ⟨[], rfl⟩

theorem Reached.answered (reached : Reached s i h) (ask : Ask) :
    Reached s i (answer s i h ask).2 := by
  obtain ⟨asks, rfl⟩ := reached
  exact ⟨asks ++ [ask], after_concat ..⟩

section

variable {chain : Value} {address name : Text}

/-- The first of the two requests. -/
theorem Reached.connected (reached : Reached s i h) {position : ℕ} {h' : Handles}
    (connects : h.connect s chain = .ok (position, h')) :
    Reached s i h' ∧ position < h'.services.length := by
  have again := reached.answered (.connection chain)
  rw [answer, connects] at again
  refine ⟨again, ?_⟩
  have connected := Handles.connected h s chain
  rw [connects] at connected
  rw [services, List.length_map]
  cases connected with
  | known first => exact (List.findIdx?_eq_some_iff_getElem.mp first).1
  | opened => simp

theorem opening_of_connected {position : ℕ} {h' : Handles}
    (connects : h.connect s chain = .ok (position, h')) :
    (opening s i chain (.text address) (.text name) h).outcome =
        (answer s i h' (.contract position address name)).1.map (fun _ => ()) ∧
      (opening s i chain (.text address) (.text name) h).state =
        (answer s i h' (.contract position address name)).2 := by
  simp only [opening, connects, answer]
  generalize h'.contract i position (.text address) (.text name) = requested
  obtain ⟨outcome, h''⟩ := requested
  cases outcome with
  | ok g => exact ⟨rfl, rfl⟩
  | error e => exact ⟨rfl, rfl⟩

theorem opening_of_unconnected {e : Failure} (failed : h.connect s chain = .error e) :
    opening s i chain (.text address) (.text name) h = ⟨.error e, [], h⟩ := by
  rw [opening, failed]

theorem Reached.opening (reached : Reached s i h) (chain : Value) (address name : Text) :
    Reached s i (opening s i chain (.text address) (.text name) h).state := by
  cases connects : h.connect s chain with
  | error e =>
    rw [opening_of_unconnected connects]
    exact reached
  | ok p =>
    rw [(opening_of_connected connects).2]
    exact (reached.connected connects).1.answered _

/-- **Openings.** A contract is opened exactly if there is the connection to its chain, the text is
an address, and there is the interface. -/
theorem Reached.opening_eq_ok_iff (reached : Reached s i h) :
    (Handles.opening s i chain (.text address) (.text name) h).outcome = .ok () ↔
      (∃ p, h.connect s chain = .ok p) ∧ (∃ n, Address.Writes n (.text address)) ∧
        ∃ v, readInterface i (.text name) = .ok v := by
  cases connects : h.connect s chain with
  | error e =>
    rw [opening_of_unconnected connects]
    simp
  | ok p =>
    obtain ⟨position, h'⟩ := p
    obtain ⟨⟨asks, rfl⟩, inside⟩ := reached.connected connects
    have given := (kept_and_served s i asks).1.isOk_iff s position address name
    rw [(opening_of_connected connects).1, map_eq_ok]
    simp only [inside, true_and] at given
    simp [given]

end

end Handles

namespace Contract

variable {σ : Type} {s : Settings} {i : Resource.Installation} {answer : Pairing σ} {chain : Value}
  {t : Handles × σ}

theorem opening_handled (address interface : Value) :
    ((handled s i answer).opening chain address interface t).outcome =
      (Handles.opening s i chain address interface t.1).outcome :=
  rfl

/-- **No acceptance without an address.** Whatever was asked for before, and whatever would be
answered, a contract at a text that is no address accepts no proof. -/
theorem not_accepts_handled (reached : Handles.Reached s i t.1) {address : Text}
    (unspelled : ∀ n, ¬ Address.Writes n (.text address)) (backoff : Backoff)
    (proof inputs : List ℕ) :
    (Pairing.ofContract chain (.text address) backoff (handled s i answer) proof inputs t).outcome ≠
      .ok () := by
  intro accepts
  obtain ⟨t', reached, opened, -⟩ :=
    Pairing.exists_answer_of_verify (fun t => Handles.Reached s i t.1)
      (fun t reached => reached.opening chain address Pairing.interface) (fun _ reached => reached)
      reached accepts
  obtain ⟨-, ⟨n, writes⟩, -⟩ := reached.opening_eq_ok_iff.mp opened
  exact unspelled n writes

end Contract

end ProofGate
