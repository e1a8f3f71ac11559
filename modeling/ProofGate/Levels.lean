import ProofGate.Failure
import ProofGate.Text.Case

/-!
# Log levels

All loggers hang below one, which carries the handler and the level. Levels have names; a name
that is none stands for the level of information.
-/

namespace ProofGate

structure Journal where
  /-- The level set on the top logger, an integer; zero means that none is set. -/
  level : Value
  handlers : Nat

namespace Journal

def top : Text := "lpn_query_toolkit"

def information : Int := 20

/-- The name of the text that the first level comes from. -/
def levelVariable : String := "LPN_LOG_LEVEL"

def levels : List (Text × Int) :=
  [("NOTSET", 0), ("DEBUG", 10), ("INFO", 20), ("WARNING", 30), ("WARN", 30), ("ERROR", 40),
    ("CRITICAL", 50), ("FATAL", 50)]

/-- The level of a name in any case. Two names are reserved for other purposes. -/
def levelOf (name : Text) : Except Failure Int :=
  let name := Text.upper name
  if name = "BASIC_FORMAT" then .error (.levelUnknown "%(levelname)s:%(name)s:%(message)s")
  else if name = "_STYLES" then .error (.levelForm .null)
  else .ok ((levels.lookup name).getD information)

/-- Gives the top logger a handler, if it has none yet, and then the level of a name. -/
def configure (j : Journal) (name : Option Text) : Except Failure Unit × Journal :=
  if j.handlers = 0 then
    match levelOf (name.getD "INFO") with
    | .ok level => (.ok (), ⟨.int level, 1⟩)
    | .error e => (.error e, { j with handlers := 1 })
  else (.ok (), j)

def setLevel (j : Journal) (level : Value) : Except Failure Journal :=
  match level with
  | .text name => (levelOf name).map fun n => { j with level := .int n }
  | .int _ => .ok { j with level }
  | .bool _ => .ok { j with level }
  | v => .error (.levelForm v)

/-- The level from which records are kept: without one set, that of warnings. -/
def effective (j : Journal) : Value :=
  if j.level.isPresent then j.level else .int 30

/-- The least rank of the records that are kept. -/
def rank (j : Journal) : Int :=
  j.effective.count?.getD 0

/-- The full name of a logger: names elsewhere are put below the top one. -/
def loggerName (name : Text) : Text :=
  if name = [] ∨ name = top then top
  else if (top ++ ".").isPrefixOf name then name
  else top ++ "." ++ name

end Journal

end ProofGate
