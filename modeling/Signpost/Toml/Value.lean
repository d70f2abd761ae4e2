import Signpost.Toml.DateTime
import Signpost.Toml.Number

/-!
# Values of settings files

The data that a settings file holds. The names of the members of a table differ from each other.
-/

namespace Signpost.Toml

/-- Why a text is not a settings file, or not one of the kind that was asked for. -/
inductive Fault
  | expected (what : String)
  /-- A key is given a value, or a table its header, for the second time. -/
  | redefined (key : String)
  | notATable (key : String)
  | tooDeep
  | missing (field : String)
  deriving DecidableEq, Repr, Inhabited

def Fault.message : Fault → String
  | expected what => "expected " ++ what
  | redefined key => "duplicate key `" ++ key ++ "`"
  | notATable key => "`" ++ key ++ "` is not a table"
  | tooDeep => "nested too deeply"
  | missing field => "missing field `" ++ field ++ "`"

inductive Value
  | string (s : String)
  | integer (n : Int)
  | float (x : Binary64)
  | bool (b : Bool)
  | dateTime (t : DateTime)
  | array (items : List Value)
  | table (members : List (String × Value))
  deriving Repr, Inhabited

/-- The value of a word that is not quoted. -/
def Value.ofWord? (cs : List Char) : Option Value :=
  if cs = "true".toList then some (bool true)
  else if cs = "false".toList then some (bool false)
  else
    ((DateTime.read? cs).map dateTime).or
      (((readFloat? cs).map float).or ((readInteger? cs).map integer))

end Signpost.Toml
