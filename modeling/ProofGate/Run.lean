import ProofGate.Failure
import ProofGate.Shown

/-!
# Runs

Checking a bundle calls out: it logs, waits between attempts, opens contract handles and asks a
verifier whose answers may depend on earlier calls. A run is a function of that verifier's
state; it gives an outcome, the events in their order and the next state, whatever the outcome.
-/

namespace ProofGate

/-! ## Events -/

inductive Level where
  | debug
  | info
  | warning
  | error
deriving Repr, DecidableEq

def Level.rank : Level → Nat
  | debug => 10
  | info => 20
  | warning => 30
  | error => 40

def Level.name : Level → String
  | debug => "DEBUG"
  | info => "INFO"
  | warning => "WARNING"
  | error => "ERROR"

/-- Who writes to the log. -/
inductive Channel where
  | processor
  | pairing
  | retry
  | service
deriving Repr, DecidableEq

def Channel.name : Channel → String
  | processor => "lpn_query_toolkit.query.processor"
  | pairing => "lpn_query_toolkit.query.primitive"
  | retry => "lpn_query_toolkit.shared.retry"
  | service => "lpn_query_toolkit.query.service"

structure Record where
  level : Level
  channel : Channel
  text : Text
deriving Repr, DecidableEq

inductive Event where
  | logged (record : Record)
  | slept (seconds : Double)
  | opened (address : Value) (interface : Text)
  | printed (shown : Shown)
deriving Repr

namespace Event

/-- The log records of a rank or above. -/
def records (rank : Int) (events : List Event) : List Record :=
  events.filterMap fun
    | logged r => if rank ≤ r.level.rank then some r else none
    | _ => none

def delays (events : List Event) : List Double :=
  events.filterMap fun
    | slept d => some d
    | _ => none

/-- Addresses and interfaces of the contract handles opened. -/
def handles (events : List Event) : List (Value × Text) :=
  events.filterMap fun
    | opened a i => some (a, i)
    | _ => none

/-- What was printed. -/
def prints (events : List Event) : List Shown :=
  events.filterMap fun
    | printed s => some s
    | _ => none

end Event

def Record.line (r : Record) : Text :=
  r.level.name ++ " " ++ r.channel.name ++ " " ++ r.text

/-! ## Runs -/

structure Trace (σ α : Type) where
  outcome : Except Failure α
  events : List Event
  state : σ

def Run (σ α : Type) : Type :=
  σ → Trace σ α

namespace Run

variable {σ α β : Type}

/-- An outcome without events that leaves the state as it is. -/
def ofExcept (r : Except Failure α) : Run σ α :=
  fun s => ⟨r, [], s⟩

def done (a : α) : Run σ α :=
  ofExcept (.ok a)

def fail (e : Failure) : Run σ α :=
  ofExcept (.error e)

/-- Goes on with the outcome of a run unless that is a failure. -/
def andThen (r : Run σ α) (f : α → Run σ β) : Run σ β := fun s =>
  let t := r s
  match t.outcome with
  | .ok a =>
    let u := f a t.state
    ⟨u.outcome, t.events ++ u.events, u.state⟩
  | .error e => ⟨.error e, t.events, t.state⟩

instance : Monad (Run σ) where
  pure := done
  bind := andThen

/-- A run whose failure is an outcome like any other. -/
def attempt (r : Run σ α) : Run σ (Except Failure α) := fun s =>
  let t := r s
  ⟨.ok t.outcome, t.events, t.state⟩

def emit (e : Event) : Run σ Unit :=
  fun s => ⟨.ok (), [e], s⟩

/-- A run on a part of the state. -/
def within {τ : Type} (part : τ → σ) (put : σ → τ → τ) (r : Run σ α) : Run τ α := fun t =>
  let u := r (part t)
  ⟨u.outcome, u.events, put u.state t⟩

def print (shown : Shown) : Run σ Unit :=
  emit (.printed shown)

def log (level : Level) (channel : Channel) (text : Text) : Run σ Unit :=
  emit (.logged ⟨level, channel, text⟩)

end Run

end ProofGate
