import Signpost.Toml.Value

/-!
# Drafts of tables

A file builds its tables piece by piece, and what may still be added to a table depends on how the
table came about. Drafts of tables remember that; the finished values do not.
-/

namespace Signpost.Toml

/-- The name of a member, and the names of the tables on the way to it. -/
structure Key where
  path : List String
  name : String
  deriving DecidableEq, Repr, Inhabited

namespace Key

def full (k : Key) : List String := k.path ++ [k.name]

end Key

/-- How a table came about. -/
inductive Origin
  /-- It has a header or braces of its own. -/
  | header
  /-- A header names a table in it. -/
  | implied
  /-- A dotted key leads through it. -/
  | dotted
  deriving DecidableEq, Repr, Inhabited

inductive Draft
  | value (v : Value)
  | table (origin : Origin) (members : List (String × Draft))
  /-- A list of tables, each with a header; there is at least one. -/
  | tables (elements : List (List (String × Draft)))
  deriving Inhabited

namespace Draft

abbrev Members := List (String × Draft)

/-- Changes the member with a name; the change is told what is there. -/
def alter (name : String) (change : Option Draft → Except Fault Draft) :
    Members → Except Fault Members
  | [] => do return [(name, ← change none)]
  | (n, d) :: ms => do
    if n = name then return (n, ← change (some d)) :: ms
    else return (n, d) :: (← alter name change ms)

/-- Changes the table at a path. Tables on the way that are not there are made, and of a list of
tables the last one is meant. A dotted key does not lead into a table that has a header. -/
def within (dotted : Bool) (change : Origin → Members → Except Fault Members) :
    List String → Origin → Members → Except Fault Members
  | [], origin, ms => change origin ms
  | name :: path, _, ms =>
    alter name (fun
      | none =>
        let origin := if dotted then .dotted else .implied
        return table origin (← within dotted change path origin [])
      | some (value _) => throw (.notATable name)
      | some (tables es) => do
        let last ← within dotted change path .header (es.getLast?.getD [])
        return tables (es.dropLast ++ [last])
      | some (table origin inside) =>
        if dotted ∧ origin = .header then throw (.redefined name)
        else return table origin (← within dotted change path origin inside)) ms

/-- Gives a key a value. A dotted key ends in a table that dotted keys made. -/
def assign (key : Key) (v : Value) (ms : Members) : Except Fault Members :=
  within true (fun origin inside =>
    if key.path ≠ [] ∧ origin ≠ .dotted then throw (.redefined key.name)
    else
      alter key.name (fun
        | none => return value v
        | some _ => throw (.redefined key.name)) inside) key.path .header ms

/-- Opens a table by its header. It may be there already if only headers in it implied it. -/
def openTable (key : Key) (ms : Members) : Except Fault Members :=
  within false (fun _ inside =>
    alter key.name (fun
      | none => return table .header []
      | some (table .implied members) => return table .header members
      | some _ => throw (.redefined key.name)) inside) key.path .header ms

/-- Opens one more table of a list of tables. -/
def openElement (key : Key) (ms : Members) : Except Fault Members :=
  within false (fun _ inside =>
    alter key.name (fun
      | none => return tables [[]]
      | some (tables es) => return tables (es ++ [[]])
      | some _ => throw (.redefined key.name)) inside) key.path .header ms

mutual

/-- The finished value. -/
def toValue : Draft → Value
  | value v => v
  | table _ ms => .table (toMembers ms)
  | tables es => .array (toTables es)

def toMembers : List (String × Draft) → List (String × Value)
  | [] => []
  | (name, d) :: ms => (name, d.toValue) :: toMembers ms

def toTables : List (List (String × Draft)) → List Value
  | [] => []
  | ms :: es => .table (toMembers ms) :: toTables es

end

end Draft

end Signpost.Toml
