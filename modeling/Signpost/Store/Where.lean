import Signpost.Dict

/-!
# Filters

What is asked of the rows of a data store: for each of some columns a value, or a set of values.
-/

namespace Signpost

/-- A row of a table: values by column. -/
abbrev Row := Names String

inductive Constraint
  | is (value : String)
  | among (values : List String)
  deriving DecidableEq, Repr, Inhabited

namespace Constraint

/-- Values are compared as texts. -/
def accepts : Constraint → String → Bool
  | is v, value => v == value
  | among vs, value => vs.contains value

def values : Constraint → List String
  | is v => [v]
  | among vs => vs

theorem accepts_iff (c : Constraint) (value : String) :
    c.accepts value = true ↔ value ∈ c.values := by
  cases c with
  | is v => simp only [accepts, values, List.mem_singleton, beq_iff_eq]; exact eq_comm
  | among vs => simp [accepts, values]

end Constraint

/-- One constraint for each of some columns. -/
structure Where where
  columns : Names Constraint := .empty
  deriving DecidableEq, Repr, Inhabited

namespace Where

def empty : Where := {}

def isEmpty (w : Where) : Bool := w.columns.isEmpty

def get? (w : Where) (column : String) : Option Constraint := w.columns.get? column

def contains (w : Where) (column : String) : Bool := w.columns.contains column

/-- Sets the constraint on a column, in place of the one there. -/
def insert (w : Where) (column : String) (c : Constraint) : Where := ⟨w.columns.insert column c⟩

def erase (w : Where) (column : String) : Where := ⟨w.columns.erase column⟩

/-- The constraint on a column, and the filter without it. -/
def take (w : Where) (column : String) : Option Constraint × Where :=
  (w.get? column, w.erase column)

/-- Whether a row meets every constraint. A column that the row lacks meets none. -/
def accepts (w : Where) (row : Row) : Bool :=
  w.columns.entries.all fun (column, c) => (row.get? column).any c.accepts

end Where

end Signpost
