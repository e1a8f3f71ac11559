import ProofGate.Failure

/-!
# Reading JSON

A document is one value between blanks. Integers and doubles stay apart, the undefined and the
infinite doubles have names, members keep the order of their first mention and the value of
their last. A fault is told with the place, counted in characters, at which the document stops
making sense.
-/

namespace ProofGate.Json

/-- The rest of a document and how many characters stand before it. -/
structure Cursor where
  pos : Nat
  rest : List Char

/-- A fault and its place. -/
abbrev Read (α : Type) := Except (JsonFault × Nat) (α × Cursor)

def isGap (c : Char) : Bool :=
  c == ' ' || c == '\t' || c == '\n' || c == '\r'

def Cursor.skip (c : Cursor) : Cursor :=
  ⟨c.pos + (c.rest.takeWhile isGap).length, c.rest.dropWhile isGap⟩

def Cursor.advance (c : Cursor) (n : Nat) : Cursor :=
  ⟨c.pos + n, c.rest.drop n⟩

/-! ## Texts -/

def hexNumber? (cs : List Char) : Option Nat :=
  cs.foldl (fun n c => do
    let n ← n
    let d ← Hex.value? c
    pure (n * 16 + d)) (some 0)

def isHighHalf (n : Nat) : Bool :=
  0xD800 ≤ n && n < 0xDC00

def isLowHalf (n : Nat) : Bool :=
  0xDC00 ≤ n && n < 0xE000

/-- The point of a code escape, of which `\u` is read, and how many characters follow the `u`.
Two halves that belong together make one character; any other half stands for itself. The place
of a fault counts from the `u`. -/
def codeEscape (cs : List Char) : Except Nat (Point × Nat) :=
  if cs.length ≤ 4 then .error 0
  else
    match hexNumber? (cs.take 4) with
    | none => .error 0
    | some n =>
      match cs.drop 4 with
      | '\\' :: 'u' :: more =>
        if isHighHalf n && 4 < more.length then
          match hexNumber? (more.take 4) with
          | none => .error 6
          | some m =>
            if isLowHalf m then
              .ok (Point.ofCode (0x10000 + (n - 0xD800) * 0x400 + (m - 0xDC00)), 10)
            else .ok (Point.ofCode n, 4)
        else .ok (Point.ofCode n, 4)
      | _ => .ok (Point.ofCode n, 4)

def shortEscape? : Char → Option Char
  | '"' => some '"'
  | '\\' => some '\\'
  | '/' => some '/'
  | 'b' => some '\x08'
  | 'f' => some '\x0c'
  | 'n' => some '\n'
  | 'r' => some '\r'
  | 't' => some '\t'
  | _ => none

/-- One point of a text, of which `first` is read, and how many characters follow `first`. -/
def textPoint (opened pos : Nat) (first : Char) (rest : List Char) :
    Except (JsonFault × Nat) (Point × Nat) :=
  if first = '\\' then
    match rest with
    | [] => .error (.openText, opened)
    | 'u' :: cs =>
      match codeEscape cs with
      | .ok (p, n) => .ok (p, n + 1)
      | .error d => .error (.badCodeEscape, pos + 1 + d)
    | e :: _ =>
      match shortEscape? e with
      | some c => .ok (.char c, 1)
      | none => .error (.badEscape, pos)
  else if first.toNat < 0x20 then .error (.controlCharacter, pos)
  else .ok (.char first, 0)

/-- The text up to its closing quote; `opened` is the place of the opening one. -/
def textFrom (opened pos : Nat) (cs : List Char) (done : Text) : Read Text :=
  match cs with
  | [] => .error (.openText, opened)
  | first :: rest =>
    if first = '"' then .ok (done.reverse, ⟨pos + 1, rest⟩)
    else
      match textPoint opened pos first rest with
      | .error e => .error e
      | .ok (p, n) => textFrom opened (pos + 1 + n) (rest.drop n) (p :: done)
termination_by cs.length
decreasing_by simp only [List.length_drop, List.length_cons]; omega

/-! ## Numbers -/

def isDigit (c : Char) : Bool :=
  '0' ≤ c && c ≤ '9'

def natOf (ds : List Char) : Nat :=
  Literal.ofDigits 10 (ds.map fun d => d.toNat - 48)

/-- The digits of the whole part: a zero alone, or digits of which the first is not zero. -/
def wholeDigits (cs : List Char) : List Char :=
  match cs with
  | '0' :: _ => ['0']
  | cs => cs.takeWhile isDigit

/-- The digits after a point, if there are any. -/
def fractionDigits : List Char → List Char
  | '.' :: cs => cs.takeWhile isDigit
  | _ => []

/-- The exponent behind its letter, and the count of characters it takes, letter included. -/
def exponent? : List Char → Option (Int × Nat)
  | e :: cs =>
    if e = 'e' ∨ e = 'E' then
      let (negative, signs, cs) : Bool × Nat × List Char := match cs with
        | '-' :: cs => (true, 1, cs)
        | '+' :: cs => (false, 1, cs)
        | cs => (false, 0, cs)
      let ds := cs.takeWhile isDigit
      if ds.isEmpty then none
      else
        let n := Int.ofNat (natOf ds)
        some (if negative then -n else n, 1 + signs + ds.length)
    else none
  | [] => none

/-- A number at the cursor. A fraction or an exponent makes it a double. -/
def number? (c : Cursor) : Option (Value × Cursor) :=
  let (negative, body) := match c.rest with
    | '-' :: cs => (true, cs)
    | cs => (false, cs)
  let whole := wholeDigits body
  if whole.isEmpty then none
  else
    let afterWhole := body.drop whole.length
    let fraction := fractionDigits afterWhole
    let pointed := if fraction.isEmpty then 0 else fraction.length + 1
    let power := exponent? (afterWhole.drop pointed)
    let size := (if negative then 1 else 0) + whole.length + pointed
      + ((power.map Prod.snd).getD 0)
    let value :=
      if fraction.isEmpty && power.isNone then
        Value.int (if negative then -Int.ofNat (natOf whole) else Int.ofNat (natOf whole))
      else
        Value.float (Double.ofDecimal negative (natOf (whole ++ fraction))
          (((power.map Prod.fst).getD 0) - Int.ofNat fraction.length))
    some (value, c.advance size)

/-! ## Values -/

/-- The words that stand for values. -/
def words : List (List Char × Value) :=
  [("null".toList, .null), ("true".toList, .bool true), ("false".toList, .bool false),
    ("NaN".toList, .float .nan), ("Infinity".toList, .float (.infinite false)),
    ("-Infinity".toList, .float (.infinite true))]

/-- A value that is neither a text, a list nor an object. -/
def atom (c : Cursor) : Read Value :=
  match words.find? fun w => w.1.isPrefixOf c.rest with
  | some (word, v) => .ok (v, c.advance word.length)
  | none =>
    match number? c with
    | some (.int n, after) =>
      let count := (wholeDigits (c.rest.dropWhile (· == '-'))).length
      if Literal.maxDigits < count then .error (.longNumber count, c.pos)
      else .ok (.int n, after)
    | some r => .ok r
    | none => .error (.valueDue, c.pos)

mutual

/-- The value at the cursor. -/
def value : Nat → Cursor → Read Value
  | 0, c => .error (.valueDue, c.pos)
  | fuel + 1, c =>
    match c.rest with
    | '"' :: cs =>
      match textFrom c.pos (c.pos + 1) cs [] with
      | .ok (s, c) => .ok (.text s, c)
      | .error e => .error e
    | '[' :: _ =>
      let inside := (c.advance 1).skip
      match inside.rest with
      | ']' :: _ => .ok (.list [], inside.advance 1)
      | _ =>
        match items fuel inside with
        | .ok (vs, c) => .ok (.list vs, c)
        | .error e => .error e
    | '\x7b' :: _ =>
      let inside := (c.advance 1).skip
      match inside.rest with
      | '\x7d' :: _ => .ok (.object [], inside.advance 1)
      | _ =>
        match members fuel inside with
        | .ok (ms, c) => .ok (.object ms, c)
        | .error e => .error e
    | _ => atom c

/-- The items of a list up to its closing bracket, from the first item on. -/
def items : Nat → Cursor → Read (List Value)
  | 0, c => .error (.valueDue, c.pos)
  | fuel + 1, c =>
    match value fuel c with
    | .error e => .error e
    | .ok (v, c) =>
      let c := c.skip
      match c.rest with
      | ']' :: _ => .ok ([v], c.advance 1)
      | ',' :: _ =>
        match items fuel (c.advance 1).skip with
        | .ok (vs, c) => .ok (v :: vs, c)
        | .error e => .error e
      | _ => .error (.commaDue, c.pos)

/-- The members of an object up to its closing brace, from the first name on, each as written. -/
def members : Nat → Cursor → Read (List (Text × Value))
  | 0, c => .error (.valueDue, c.pos)
  | fuel + 1, c =>
    match c.rest with
    | '"' :: cs =>
      match textFrom c.pos (c.pos + 1) cs [] with
      | .error e => .error e
      | .ok (name, c) =>
        let c := c.skip
        match c.rest with
        | ':' :: _ =>
          match value fuel (c.advance 1).skip with
          | .error e => .error e
          | .ok (v, c) =>
            let c := c.skip
            match c.rest with
            | '\x7d' :: _ => .ok ([(name, v)], c.advance 1)
            | ',' :: _ =>
              match members fuel (c.advance 1).skip with
              | .ok (ms, c) => .ok ((name, v) :: ms, c)
              | .error e => .error e
            | _ => .error (.commaDue, c.pos)
        | _ => .error (.colonDue, c.pos)
    | _ => .error (.nameDue, c.pos)

end

/-- Members by name: the place of the first mention, the value of the last. -/
def settle (ms : List (Text × Value)) : List (Text × Value) :=
  ms.foldl (fun done m => Value.put done m.1 m.2) []

mutual

/-- Settles the members of every object in a value. -/
def settled : Value → Value
  | .list vs => .list (settledItems vs)
  | .object ms => .object (settle (settledMembers ms))
  | v => v

def settledItems : List Value → List Value
  | [] => []
  | v :: vs => settled v :: settledItems vs

def settledMembers : List (Text × Value) → List (Text × Value)
  | [] => []
  | (name, v) :: ms => (name, settled v) :: settledMembers ms

end

def document (cs : List Char) : Except (JsonFault × Nat) Value :=
  match cs with
  | '\uFEFF' :: _ => .error (.byteOrderMark, 0)
  | cs =>
    match value (2 * cs.length + 2) (Cursor.skip ⟨0, cs⟩) with
    | .error e => .error e
    | .ok (v, c) =>
      let c := c.skip
      if c.rest.isEmpty then .ok (settled v) else .error (.extraData, c.pos)

/-- A fault with its line and column, both counted from one. A number that is too long is one
without its place. -/
def locate (cs : List Char) (fault : JsonFault) (pos : Nat) : Failure :=
  let before := cs.take pos
  let line := before.count '\n' + 1
  let column := (before.reverse.takeWhile (· != '\n')).length + 1
  match fault with
  | .longNumber count => .longLiteral count
  | fault => .badJson fault line column pos

def read (t : Text) : Except Failure Value :=
  let cs := t.chars
  match document cs with
  | .ok v => .ok v
  | .error (fault, pos) => .error (locate cs fault pos)

end ProofGate.Json
