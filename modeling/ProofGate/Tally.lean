import ProofGate.Report

/-!
# Tallies

The summary of a batch: how many bundles were accepted and rejected, the accepted ones by
identifier, the findings of the rejected ones, and the released values.
-/

namespace ProofGate

structure Tally where
  accepted : Nat
  rejected : Nat
  byIdentifier : List (Value × Nat)
  findings : List Finding
  results : List (Value × Value)

namespace Tally

def empty : Tally :=
  ⟨0, 0, [], [], []⟩

/-- Adds one to the count of a key, which may be a new one. -/
def count (counts : List (Value × Nat)) (key : Value) : List (Value × Nat) :=
  match counts with
  | [] => [(key, 1)]
  | (k, n) :: rest => if k.sameKey key then (k, n + 1) :: rest else (k, n) :: count rest key

/-- Records an accepted bundle under its label. -/
def accept (t : Tally) (identifier label values : Value) : Tally :=
  { t with
    accepted := t.accepted + 1
    byIdentifier := count t.byIdentifier identifier
    results := t.results ++ [(label, values)] }

/-- The same for an identifier of any form; a list or an object cannot be counted under. -/
def record (t : Tally) (identifier label values : Value) : Except Failure Tally :=
  if identifier.canBeKey then .ok (t.accept identifier label values)
  else .error (.notKey identifier)

/-- Records a rejected bundle with its findings. -/
def reject (t : Tally) (findings : List Finding) : Tally :=
  { t with rejected := t.rejected + 1, findings := t.findings ++ findings }

/-- Findings counted by their headings, on top of the counts of others. -/
def reasonsFrom (counts : List (Value × Nat)) : List Finding → Except Failure (List (Value × Nat))
  | [] => .ok counts
  | f :: fs =>
    if f.heading.canBeKey then reasonsFrom (count counts f.heading) fs
    else .error (.notKey f.heading)

/-- Findings above a warning, counted by their headings. -/
def reasons (t : Tally) : Except Failure (List (Value × Nat)) :=
  reasonsFrom [] (t.findings.filter fun f => f.severity != .warning)

def rate (t : Tally) : Text :=
  let total := t.accepted + t.rejected
  if total = 0 then "N/A" else Numeral.ofNat t.accepted ++ "/" ++ Numeral.ofNat total

/-- Counts under the texts of their keys; of two keys with one text the later count stays. -/
def countsValue (counts : List (Value × Nat)) : Value :=
  .object (counts.foldl (fun ms c => Value.put ms c.1.bare (.int c.2)) [])

def toValue (t : Tally) : Except Failure Value := do
  let reasons ← t.reasons
  let resultValue (r : Value × Value) : Value := .object [("label", r.1), ("result", r.2)]
  pure (.object [
    ("success_rate", .text t.rate),
    ("counts", .object [
      ("accepted", .int t.accepted),
      ("rejected", .int t.rejected),
      ("accepted_by_identifier", countsValue t.byIdentifier)]),
    ("rejection_reasons", countsValue reasons),
    ("errors", .list (t.findings.map Finding.toValue)),
    ("results", .list (t.results.map resultValue))])

end Tally

end ProofGate
