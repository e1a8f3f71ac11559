import ProofGate.Number.Literal
import ProofGate.Value

/-!
# Options

Reading an argument list against a set of switches that take one value each. A switch may be cut
short as long as it stays unique, and its value may stand behind an equals sign. Every argument
is classified before any is used, so an ambiguous one is refused even behind a request for help.

Two things were read otherwise from the beginning of 2024 on: the mark behind an equals sign, and
letters behind `-h`. What is meant here is the reading before, that of release 3.11.2.
-/

namespace ProofGate.Options

/-- Why a command line is not run: its use is wrong, or help was asked for. -/
inductive Refusal where
  | usage
  | help
deriving Repr, DecidableEq

/-- The status that a refused command line ends with. -/
def Refusal.status : Refusal → Nat
  | usage => 2
  | help => 0

structure Switch where
  name : Text
  isNumber : Bool
deriving Repr, DecidableEq

/-- What a command takes: switches, those it needs, and a group of which it needs exactly one. -/
structure Grammar where
  switches : List Switch
  required : List Text
  oneOf : List Text
deriving Repr, DecidableEq

/-- What an argument is: a switch with the value written behind it in the same argument, a
request for help, which takes no value, something that looks like a switch, the mark that ends
the switches, or a plain value. -/
inductive Token where
  | switch (s : Switch) (joined : Option Text)
  | help (fit : Bool)
  | unknown
  | dashes
  | plain
deriving Repr, DecidableEq

/-! ## Classification -/

def dash : Point := .char '-'

/-- The mark that ends the switches. -/
def mark : Text :=
  [dash, dash]

def isDecimal (p : Point) : Bool :=
  p.isIn fun c => (Text.decimalValue? c).isSome

/-- A sign and digits, with a point in front of the last of them or none. One line break may
follow. -/
def isNegativeNumber (t : Text) : Bool :=
  let t := if t.getLast? = some (.char '\n') then t.dropLast else t
  match t with
  | .char '-' :: ds =>
    match ds.dropWhile isDecimal with
    | [] => !ds.isEmpty
    | .char '.' :: fs => !fs.isEmpty && fs.all isDecimal
    | _ => false
  | _ => false

/-- The text before the first equals sign and the text behind it, if there is one. -/
def splitJoined (t : Text) : Text × Option Text :=
  let isSign (p : Point) : Bool := p == .char '='
  (t.takeWhile fun p => !isSign p,
    match t.dropWhile fun p => !isSign p with
    | [] => none
    | _ :: back => some back)

/-- Behind the letter that asks for help only the same letter may stand, which asks again. (Any other
letter is a wrong use, as in release 3.11.2.) -/
def asksAgain (letters : Text) : Bool :=
  !letters.isEmpty && letters.all fun p => p == .char 'h'

/-- The switch or request for help of exactly that name. -/
def named? (g : Grammar) (name : Text) (joined : Option Text) : Option Token :=
  if name = "-h" then some (.help (joined.all asksAgain))
  else if name = "--help" then some (.help joined.isNone)
  else (g.switches.find? (·.name == name)).map fun s => .switch s joined

/-- All that a cut name may stand for. -/
def stemmed (g : Grammar) (t : Text) : List Token :=
  match t with
  | .char '-' :: .char '-' :: _ =>
    let (stem, joined) := splitJoined t
    let fits (name : Text) : Bool := stem.isPrefixOf name
    (if fits "--help" then [Token.help joined.isNone] else [])
      ++ (g.switches.filter fun s => fits s.name).map fun s => .switch s joined
  | .char '-' :: .char 'h' :: letters => [.help (asksAgain letters)]
  | _ => []

def classify (g : Grammar) (t : Text) : Except Refusal Token :=
  if t.head? ≠ some dash then .ok .plain
  else
    let (name, joined) := splitJoined t
    match named? g t none with
    | some token => .ok token
    | none =>
      if t = [dash] then .ok .plain
      else
        match if joined.isSome then named? g name joined else none with
        | some token => .ok token
        | none =>
          match stemmed g t with
          | [token] => .ok token
          | [] => .ok (if isNegativeNumber t || t.contains (.char ' ') then .plain else .unknown)
          | _ => .error .usage

/-- Classifies arguments; all behind the mark are plain. -/
def classifyAll (g : Grammar) : List Text → Except Refusal (List (Text × Token))
  | [] => .ok []
  | arg :: rest =>
    if arg = mark then .ok ((arg, .dashes) :: rest.map fun arg => (arg, .plain))
    else do
      let t ← classify g arg
      let ts ← classifyAll g rest
      pure ((arg, t) :: ts)

/-! ## Use -/

/-- The values given so far, the latest first, and whether an argument belonged nowhere. -/
structure Sheet where
  values : List (Text × Value)
  stray : Bool

namespace Sheet

def blank : Sheet :=
  ⟨[], false⟩

def find? (s : Sheet) (name : Text) : Option Value :=
  s.values.lookup name

/-- What a switch was given, or nothing. -/
def value (s : Sheet) (name : Text) : Value :=
  (s.find? name).getD .null

def text? (s : Sheet) (name : Text) : Option Text :=
  (s.find? name).bind Value.text?

end Sheet

/-- The value of a switch that is written as a text. The mark is no value: behind an equals sign
it leaves the switch with an empty list of them. (So in release 3.11.2; later it is a text like any
other.) -/
def valueOf (w : Switch) (written : Text) : Except Refusal Value :=
  if written = mark then .ok (.list [])
  else if w.isNumber then
    match Literal.read .decimal written with
    | .ok n => .ok (.int n)
    | .error _ => .error .usage
  else .ok (.text written)

/-- Takes a value for a switch. A number has to be one, and of a group only one is given. -/
def store (g : Grammar) (s : Sheet) (w : Switch) (written : Text) : Except Refusal Sheet := do
  let v ← valueOf w written
  if g.oneOf.contains w.name && g.oneOf.any fun n => n != w.name && (s.find? n).isSome then
    throw .usage
  pure { s with values := (w.name, v) :: s.values }

/-- Uses arguments in their order. With commands, the first plain one and all behind it are
left over; without, it belongs nowhere. -/
def use (g : Grammar) (commands : Bool) :
    List (Text × Token) → Sheet → Except Refusal (Sheet × List Text)
  | [], s => .ok (s, [])
  | (_, .help fit) :: _, _ => .error (if fit then .help else .usage)
  | (_, .switch w (some v)) :: rest, s => do
    let s ← store g s w v
    use g commands rest s
  | (_, .switch w none) :: (v, .plain) :: rest, s => do
    let s ← store g s w v
    use g commands rest s
  | (_, .switch _ none) :: _, _ => .error .usage
  | (_, .unknown) :: rest, s => use g commands rest { s with stray := true }
  | (arg, _) :: rest, s =>
    if commands then .ok (s, arg :: rest.map Prod.fst)
    else use g commands rest { s with stray := true }

/-- Whether all that a command needs is there. -/
def complete (g : Grammar) (s : Sheet) : Bool :=
  g.required.all (fun n => (s.find? n).isSome)
    && (g.oneOf.isEmpty || g.oneOf.any fun n => (s.find? n).isSome)

/-- Reads the arguments of a command. -/
def read (g : Grammar) (args : List Text) : Except Refusal Sheet := do
  let tokens ← classifyAll g args
  let (s, _) ← use g false tokens Sheet.blank
  if complete g s then pure s else throw .usage

/-- Reads the arguments in front of a command's name, that name, and the arguments behind it by
the command's own grammar. -/
def readWithCommand (g : Grammar) (commands : List (Text × Grammar)) (args : List Text) :
    Except Refusal (Sheet × Text × Sheet) := do
  let tokens ← classifyAll g args
  let (s, rest) ← use g true tokens Sheet.blank
  match rest with
  | [] => throw .usage
  | name :: rest =>
    match commands.lookup name with
    | none => throw .usage
    | some own => do
      let inner ← read own rest
      if s.stray || inner.stray then throw .usage
      pure (s, name, inner)

end ProofGate.Options
