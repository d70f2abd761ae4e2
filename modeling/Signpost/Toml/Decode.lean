import Signpost.Dict
import Signpost.Toml.Document

/-!
# Fields of settings files

What a field of a table has to hold, and what it stands for if it is not there. Fields that nobody
asks for do not matter.
-/

namespace Signpost.Toml.Value

def asString : Value → Except Fault String
  | string s => .ok s
  | _ => .error (.expected "a string")

def asBool : Value → Except Fault Bool
  | bool b => .ok b
  | _ => .error (.expected "a boolean")

/-- The members of a table. A date or a time counts as a table with its text as the only member. -/
def asMembers : Value → Except Fault (List (String × Value))
  | table members => .ok members
  | dateTime t => .ok [("$__toml_private_datetime", string t.text)]
  | _ => .error (.expected "a table")

/-- A table all of whose members are texts. -/
def asNames (v : Value) : Except Fault (Names String) := do
  let members ← (← v.asMembers).mapM fun (name, v) => return (name, ← v.asString)
  return .ofList members

def asList {α : Type} (item : Value → Except Fault α) : Value → Except Fault (List α)
  | array items => items.mapM item
  | _ => .error (.expected "an array")

end Signpost.Toml.Value

namespace Signpost.Toml

abbrev Members := List (String × Value)

def Members.field {α : Type} (ms : Members) (name : String) (read : Value → Except Fault α)
    (default : α) : Except Fault α :=
  match ms.lookup name with
  | some v => read v
  | none => .ok default

/-- A field that has to be there. -/
def Members.required {α : Type} (ms : Members) (name : String) (read : Value → Except Fault α) :
    Except Fault α :=
  match ms.lookup name with
  | some v => read v
  | none => .error (.missing name)

end Signpost.Toml
