import ProofGate.Gate
import ProofGate.Tally

/-!
# Reviews

The gate for callers that want reports. A rejection is a finding of severity error, named after
the check that rejected; a verifier out of reach is critical, says nothing about the proof, and
stops a batch. Any other failure is the caller's.
-/

namespace ProofGate

namespace Gate

variable {σ : Type}

/-- The check that a rejection belongs to. -/
def source (k : Kind) : String :=
  if k.isA .malformedBundle then "bundle"
  else if k.isA .primitive then "primitive"
  else if k.isA .circuitMismatch then "binding"
  else if k.isA .digestMismatch then "binding"
  else if k.isA .fieldMismatch then "validator"
  else if k.isA .unsupportedTag then "extractor"
  else "processor"

def blocks (q : Query) (separator : Text) : Text :=
  Numeral.ofNat q.minBlock.toNat ++ separator ++ Numeral.ofNat q.maxBlock.toNat

def context (q : Query) : List (Text × Value) :=
  [("identifier", .int q.identifier.toNat), ("contract", .text q.contract.checksum),
    ("user", .text q.user.checksum), ("blocks", .text (blocks q "-"))]

def finding (q : Query) (e : Failure) : Option Finding :=
  if e.isA .rejection then
    some
      { source := .text (source e.kind)
        message := .text ("Query proof rejected: " ++ e.text)
        severity := .error
        context := .object (context q)
        cause := some e }
  else if e.isA .transient then
    some
      { source := .text "primitive"
        message := .text ("Verifier unavailable: " ++ e.text)
        severity := .critical
        context := .object (context q)
        cause := some e }
  else none

def review (g : Gate σ) (offer : Offer) (q : Query) : Run σ (Report (List Nat)) := do
  match ← (g.release offer q).attempt with
  | .ok values => pure (.ok values)
  | .error e =>
    match finding q e with
    | some f => pure (.fail f)
    | none => Run.fail e

/-! ## Batches -/

structure Item where
  label : Value
  offer : Offer
  query : Query

def labelled (label : Value) (f : Finding) : Finding :=
  match f.context with
  | .object ms => { f with context := .object (Value.put ms "label" label) }
  | _ => f

def valuesOf (r : Report (List Nat)) : Value :=
  .list ((r.data.getD []).map fun n => .int (Int.ofNat n))

/-- Reviews the items in order, up to the first critical finding. -/
def reviewFrom (g : Gate σ) (t : Tally) : List Item → Run σ Tally
  | [] => pure t
  | item :: rest => do
    let r ← g.review item.offer item.query
    if r.success then
      g.reviewFrom (t.accept (.int item.query.identifier.toNat) item.label (valuesOf r)) rest
    else do
      let t := t.reject (r.findings.map (labelled item.label))
      if r.hasCritical then
        Run.log .error .service
          ("Stopping batch at " ++ item.label.bare ++ ": " ++ Text.join "; " (r.messages.map Value.bare))
        pure t
      else g.reviewFrom t rest

def reviewAll (g : Gate σ) (items : List Item) : Run σ Tally := do
  let t ← g.reviewFrom Tally.empty items
  Run.log .info .service
    ("Verified " ++ Numeral.ofNat (t.accepted + t.rejected) ++ " bundle(s): "
      ++ Numeral.ofNat t.accepted ++ " accepted, " ++ Numeral.ofNat t.rejected ++ " rejected")
  pure t

end Gate

end ProofGate
