import ProofGate.Statement.Decode

/-!
# Loose places

Offsets, lengths and numbers of digits as they were handed over. A truth value counts as its
number and is told as it is; a double can lie outside like any number, but is no place itself.
-/

namespace ProofGate.Places

/-- Whether a read of `width` bytes at a place leaves `size` bytes. -/
def isOutside (width size : Nat) (x : Double) : Bool :=
  x.lt (.exact 0) || (Double.exact (Int.ofNat size - Int.ofNat width)).lt x

/-- The offset of a read of `width` bytes, which has to lie inside. -/
def offset (width : Nat) (outside : Value → Nat → Failure) (data : Bytes) (v : Value) :
    Except Failure Int :=
  match v.number? with
  | some x => if isOutside width data.length x then .error (outside v data.length)
    else Member.count v
  | none => .error (.notCompared "<" v (.int 0))

/-- The offset of the first of several digits; a double is told apart by its own read. -/
def start (data : Bytes) (v : Value) : Except Failure Int :=
  match v.count? with
  | some n => .ok n
  | none => offset 4 .digitOutside data v

/-- Words joined and cut to a length. -/
def joinWords (words : List Bytes) (total : Value) : Except Failure Bytes :=
  match total with
  | .int n => Statement.joinWords words n
  | v =>
    let data := words.flatten
    match v.number? with
    | some x => if (Double.exact (Int.ofNat data.length)).lt x then
        .error (.statementShort v data.length)
      else (Member.count v).map (Statement.firstBytes data)
    | none => .error (.notCompared "<" (.int data.length) v)

/-- Where a digit of a span begins. -/
def digit (s : Span) (index : Value) : Except Failure Value :=
  match index.number? with
  | some x =>
    if (Double.exact 0).le x && x.lt (.exact s.digits) then
      match index.count? with
      | some n => .ok (.int (s.offset + n * 8))
      | none => .ok (.float ((x.scale 3).plus s.offset))
    else .error (.digitIndex s.name s.digits index)
  | none => .error (.notCompared "<=" (.int 0) index)

end ProofGate.Places
