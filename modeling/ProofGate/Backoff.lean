import ProofGate.Member
import ProofGate.Run

/-!
# Backoff

Repeating an operation that failed in a way that a repetition may cure: a limited number of
attempts, with delays between them that stay the same or double up to a limit. Any other failure
ends the repetition at once, and the failure of the last attempt is the failure of the whole. A
policy may be made of any values; one that is not a number shows only where it is needed.
-/

namespace ProofGate

/-- The failures worth a repetition: transient ones and those of the system, those of some
kinds, or none that could be told, which the first failure shows. -/
inductive Repeatable where
  | standard
  | kinds (ks : List Kind)
  | unusable
deriving Repr, DecidableEq

structure Backoff where
  attempts : Value
  base : Value
  limit : Value
  doubling : Bool
  repeatable : Repeatable

namespace Backoff

variable {σ α : Type}

def standardKinds : List Kind :=
  [.transient, .connection, .timeout, .system]

/-- Three attempts, one second doubling up to thirty. -/
def standard : Backoff :=
  { attempts := .int 3
    base := .float (.ofInt 1)
    limit := .float (.ofInt 30)
    doubling := true
    repeatable := .standard }

/-- The same up to ten seconds, for calls of a verifier contract. -/
def forCalls : Backoff :=
  { standard with limit := .float (.ofInt 10) }

/-- A policy kept for later: a list without kinds counts as no list. -/
def kept (b : Backoff) : Backoff :=
  { b with repeatable := if b.repeatable = .kinds [] then .standard else b.repeatable }

def isRepeatable (b : Backoff) (e : Failure) : Except Failure Bool :=
  match b.repeatable with
  | .standard => .ok (standardKinds.any e.isA)
  | .kinds ks => .ok (ks.any e.isA)
  | .unusable => .error .notKinds

/-! ## Delays -/

/-- A value times `2^k`. A double takes powers of two below `2^1024`, an integer any; other values
are repeated as wholes, which the first delay already refuses. -/
def grown (v : Value) (k : Nat) : Except Failure Value :=
  match v with
  | .float x => if k < 1024 then .ok (.float (x.scale k)) else .error .delayTooLong
  | .null => .error (.notInteger v)
  | .object _ => .error (.notInteger v)
  | v =>
    match v.count? with
    | some n => .ok (.int (n * twoTo k))
    | none => .ok v

/-- The smaller of two values, the first one if neither is smaller. Of two values that are no
numbers but of one kind either will do, since neither is a delay. -/
def least (v limit : Value) : Except Failure Value :=
  match v, limit, v.number?, limit.number? with
  | _, _, some x, some y => .ok (if y.lt x then limit else v)
  | .text _, .text _, _, _ => .ok v
  | .bytes _, .bytes _, _, _ => .ok v
  | .list _, .list _, _, _ => .ok v
  | _, _, _, _ => .error (.notCompared "<" limit v)

/-- The delay after an attempt, counted from zero. -/
def delay (b : Backoff) (attempt : Nat) : Except Failure Value :=
  if b.doubling then do least (← grown b.base attempt) b.limit else .ok b.base

/-- A delay in seconds; an integer has to be within the range of doubles. -/
def seconds (v : Value) : Except Failure Double :=
  match v, v.count? with
  | .float x, _ => .ok x
  | _, some n =>
    let x := Double.ofInt n
    if x.isFinite then .ok x else .error .delayTooLong
  | _, none => .error (.notDecimal v)

/-! ## Repetition -/

def notice (b : Backoff) (name : Text) (attempt : Nat) (e : Failure) (d : Double) : Text :=
  "Attempt " ++ Numeral.ofNat (attempt + 1) ++ "/" ++ b.attempts.bare ++ " failed for "
    ++ name ++ ": " ++ e.text ++ ". Retrying in " ++ d.fixed 1 ++ "s..."

/-- Runs an operation as the attempt of a number, with so many attempts left. Any delay that can be
told in the notice is slept: `delayTooLong` is for those beyond the doubles, and how long a platform
can sleep at most (some hundred years) is left out. -/
def runFrom (b : Backoff) (name : Text) (operation : Run σ α) (attempt : Nat) : Nat → Run σ α
  | 0 => Run.fail .noAttempt
  | left + 1 => do
    match ← operation.attempt with
    | .ok a => pure a
    | .error e =>
      let again ← Run.ofExcept (b.isRepeatable e)
      if !again || left == 0 then Run.fail e
      else do
        let d ← Run.ofExcept (b.delay attempt)
        let d ← Run.ofExcept (seconds d)
        Run.log .warning .retry (b.notice name attempt e d)
        Run.emit (.slept d)
        runFrom b name operation (attempt + 1) left

/-- Runs an operation under a name for the log; without one it is called `operation`. -/
def run (b : Backoff) (name : Value) (operation : Run σ α) : Run σ α := do
  let attempts ← Run.ofExcept (Member.count b.attempts)
  b.runFrom (if name.isPresent then name.bare else "operation") operation 0 attempts.toNat

end Backoff

end ProofGate
