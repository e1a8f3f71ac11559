import ProofGate.Address
import ProofGate.Pairing
import ProofGate.Resource
import ProofGate.Settings
import ProofGate.Text.Case

/-!
# Handles

One connection for each chain and, on it, one handle for each contract address and interface,
made at the first request and kept. A request that fails leaves everything as it was, except
that an interface it has loaded stays loaded.
-/

namespace ProofGate

/-- A contract handle; its number tells it from all others. -/
structure Handle where
  number : Nat
  address : Address
  interface : Value

/-- A connection to a chain's node, with its handles by small-letter address and interface. -/
structure Connection where
  chain : Value
  endpoint : Value
  handles : List (Value × Value × Handle)

/-- The handle on a connection for a small-letter address and an interface. -/
def Connection.handle? (c : Connection) (address interface : Value) : Option Handle :=
  (c.handles.find? fun h => h.1.sameKey address && h.2.1.sameKey interface).map fun h => h.2.2

structure Handles where
  connections : List Connection
  made : Nat
  interfaces : Resource.Cache

namespace Handles

def none : Handles :=
  ⟨[], 0, []⟩

/-- The position of the connection to a chain, and the handles with it. -/
def connect (h : Handles) (s : Settings) (chain : Value) : Except Failure (Nat × Handles) :=
  if !chain.canBeKey then .error (.notKey chain)
  else
    match h.connections.findIdx? fun c => c.chain.sameKey chain with
    | some i => .ok (i, h)
    | .none => do
      let endpoint ← s.endpoint chain
      pure (h.connections.length,
        { h with connections := h.connections ++ [⟨chain, endpoint, []⟩] })

/-- An address in small letters. Bytes are taken for the codes of ASCII letters. -/
def small (address : Value) : Except Failure Value :=
  match address with
  | .text t => .ok (.text (Text.lower t))
  | .bytes bs =>
    .ok (.bytes (bs.map fun b => if 65 ≤ b && b ≤ 90 then b + 32 else b))
  | v => .error (.noOperation v "lower")

/-- Makes a handle on a connection and keeps it, if the interface is there and the address is
one. -/
def make (h : Handles) (i : Resource.Installation) (position : Nat) (c : Connection)
    (address interface : Value) : Except Failure Handle × Handles :=
  match Resource.interface i h.interfaces interface with
  | .error e => (.error e, h)
  | .ok (entries, interfaces) =>
    let h := { h with interfaces }
    match Address.normalize address with
    | .error e => (.error e, h)
    | .ok a =>
      let handle : Handle := ⟨h.made, a, entries⟩
      let c := { c with handles := c.handles ++ [(address, interface, handle)] }
      (.ok handle, { h with made := h.made + 1, connections := h.connections.set position c })

/-- The handle for a contract on a connection, and all handles afterwards. -/
def contract (h : Handles) (i : Resource.Installation) (position : Nat)
    (address interface : Value) : Except Failure Handle × Handles :=
  match h.connections[position]? with
  | .none => (.error .inputIndex, h)
  | some c =>
    match small address with
    | .error e => (.error e, h)
    | .ok address =>
      if !interface.canBeKey then (.error (.notKey interface), h)
      else
        match c.handle? address interface with
        | some handle => (.ok handle, h)
        | .none => h.make i position c address interface

/-- Opens a contract on a chain: through the connection to the chain, and by its handle there. -/
def opening (s : Settings) (i : Resource.Installation) (chain address interface : Value) :
    Run Handles Unit := fun h =>
  match h.connect s chain with
  | .error e => ⟨.error e, [], h⟩
  | .ok (position, h) =>
    let (handle, h) := h.contract i position address interface
    ⟨handle.map fun _ => (), [], h⟩

end Handles

/-- A contract that is opened by its handle. -/
def Contract.handled {σ : Type} (s : Settings) (i : Resource.Installation) (answer : Pairing σ) :
    Contract (Handles × σ) where
  opening chain address interface :=
    (Handles.opening s i chain address interface).within Prod.fst fun h t => (h, t.2)
  answer proof inputs := (answer proof inputs).within Prod.snd fun state t => (t.1, state)

end ProofGate
