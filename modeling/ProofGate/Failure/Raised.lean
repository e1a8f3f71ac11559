import ProofGate.Failure

/-!
# Failures raised elsewhere

A failure that a callee raises is made of a kind and details. The kinds of the gate take a fixed
number of details; a system failure turns out to be of a narrower kind by its error number, which
is the first of two to five details.
-/

namespace ProofGate.Failure

/-- The kind of a system failure with such details. -/
def systemKind (details : List Value) : Kind :=
  match details with
  | number :: _ :: rest =>
    if rest.length ≤ 3 then
      ((number.count?.bind fun n => Kind.numbered.lookup n).getD .system)
    else .system
  | _ => .system

/-- A system failure. If the call would have blocked, a number in place of the file says how much
was written, and is not told. -/
def system (details : List Value) : Except Failure Failure :=
  match systemKind details, details with
  | .blocking, number :: reason :: written :: _ =>
    match written with
    | .float _ => .error (.notInteger written)
    | v =>
      match v.count? with
      | none => .ok (.outside .blocking details)
      | some n =>
        if n < -(twoTo 63 : Int) ∨ twoTo 63 ≤ n then .error (.writtenTooWide)
        else .ok (.outside .blocking [number, reason])
  | k, ds => .ok (.outside k ds)

/-- A mismatch of two digests, which have to be integers. -/
def digests (make : Value → Value → Failure) (expected actual : Value) :
    Except Failure Failure :=
  if expected.count?.isNone then .error (.notInteger expected)
  else if actual.count?.isNone then .error (.notInteger actual)
  else .ok (make expected actual)

/-- The failure of a kind with details, or the failure to make one of them. -/
def raised (k : Kind) (details : List Value) : Except Failure Failure :=
  match k, details with
  | .system, ds => system ds
  | .circuitMismatch, [e, a] => digests circuitMismatch e a
  | .digestMismatch, [e, a] => digests digestMismatch e a
  | .fieldMismatch, [e, a] => .ok (.fieldMismatch none e a)
  | .mismatch f, [e, a] => .ok (.fieldMismatch (some f) e a)
  | .unsupportedTag, [v] => .ok (.unsupportedTag v)
  | k, [v] =>
    if [Kind.circuitMismatch, .digestMismatch].contains k || k.isA .fieldMismatch then
      .error (.detailCount k 1)
    else .ok (.outside k [v])
  | k, ds => if k.isOwn then .error (.detailCount k ds.length) else .ok (.outside k ds)

end ProofGate.Failure
