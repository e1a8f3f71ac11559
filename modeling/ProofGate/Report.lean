import ProofGate.Failure

/-!
# Reports

The result of an operation as data: success with what it gave, or failure with findings, each of
which names its source and severity. A successful report may carry findings as well.
-/

namespace ProofGate

inductive Severity where
  | warning
  | error
  | critical
deriving Repr, DecidableEq

namespace Severity

def name : Severity → String
  | warning => "warning"
  | error => "error"
  | critical => "critical"

def ofValue (v : Value) : Except Failure Severity :=
  match [warning, error, critical].find? fun s => v.sameKey (.text s.name) with
  | some s => .ok s
  | none => .error (.badSeverity v)

end Severity

/-- One thing that went wrong, with the failure behind it if there is one. -/
structure Finding where
  source : Value
  message : Value
  severity : Severity
  context : Value
  cause : Option Failure

namespace Finding

/-- The name of the failure's kind. -/
def reason? (f : Finding) : Option Value :=
  f.cause.map fun e => .text e.kind.name

/-- What a finding is counted and printed under. -/
def heading (f : Finding) : Value :=
  f.reason?.getD f.source

def toValue (f : Finding) : Value :=
  .object [("source", f.source), ("message", f.message), ("severity", .text f.severity.name),
    ("reason", f.reason?.getD .null), ("context", f.context)]

end Finding

structure Report (α : Type) where
  success : Bool
  data : Option α
  findings : List Finding

namespace Report

variable {α : Type}

def ok (a : α) : Report α :=
  ⟨true, some a, []⟩

def fail (f : Finding) : Report α :=
  ⟨false, none, [f]⟩

def hasCritical (r : Report α) : Bool :=
  r.findings.any fun f => f.severity == .critical

def messages (r : Report α) : List Value :=
  r.findings.map Finding.message

/-- The texts among values from an index on, if they are all texts. -/
def textsFrom (index : Nat) : List Value → Except Failure (List Text)
  | [] => .ok []
  | .text t :: vs => do
    let ts ← textsFrom (index + 1) vs
    pure (t :: ts)
  | v :: _ => .error (.notJoined index v)

/-- The data of a successful report. -/
def unwrap (r : Report α) : Except Failure (Option α) :=
  if r.success then .ok r.data
  else do
    let messages ← textsFrom 0 r.messages
    throw (.failedReport messages)

end Report

end ProofGate
