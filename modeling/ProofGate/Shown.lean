import ProofGate.Text

/-!
# What is shown

Lines of markup, and tables by their title, headings and rows.
-/

namespace ProofGate

structure Table where
  title : Text
  headings : List Text
  rows : List (List Text)
deriving Repr, DecidableEq

inductive Shown where
  | line (markup : Text)
  | table (t : Table)
deriving Repr, DecidableEq

namespace Shown

/-- The marks for colours that lines and cells may carry. -/
def marks : List String :=
  ["green", "red", "cyan"].flatMap fun colour => ["[" ++ colour ++ "]", "[/" ++ colour ++ "]"]

def withoutMarks (t : Text) : String :=
  marks.foldl (fun s mark => s.replace mark "") t.string

/-- The lines to show where there are no colours. -/
def plain : Shown → List String
  | line markup => [withoutMarks markup]
  | table t =>
    let row (cells : List Text) : String := " | ".intercalate (cells.map withoutMarks)
    t.title.string :: row t.headings :: t.rows.map row

end Shown

end ProofGate
