import Signpost.Dict
import Signpost.Text

/-!
# Variables for templates

A variable is a text, a list of texts or a list of rows. Lists and rows are rendered by repeating a
piece of template with placeholders in braces.
-/

namespace Signpost

inductive Variable
  | scalar (value : String)
  | list (values : List String)
  | rows (rows : List (Names String))
  deriving DecidableEq, Repr, Inhabited

namespace Variable

def isEmpty : Variable → Bool
  | scalar s => s.isEmpty
  | list vs => vs.isEmpty
  | rows rs => rs.isEmpty

def placeholder (name : String) : String := "\x7b" ++ name ++ "\x7d"

/-- Fills in the columns of a row, in the order of their names. -/
def fillRow (tagdata : String) (row : Names String) : String :=
  row.entries.foldl (fun text (column, value) => Text.replace (placeholder column) value text)
    tagdata

/-- Renders a variable. A scalar stands for itself; an empty variable has no rendering. -/
def render? (v : Variable) (tagdata : String) : Option String :=
  if v.isEmpty then none
  else
    some (match v with
      | scalar s => s
      | list vs =>
        String.join (vs.map fun value => Text.replace (placeholder "value") value tagdata)
      | rows rs => String.join (rs.map (fillRow tagdata)))

end Variable

end Signpost
