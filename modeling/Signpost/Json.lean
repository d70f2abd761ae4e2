import Signpost.Dict
import Signpost.Number.Shortest
import Signpost.Text.Quoted

/-!
# JSON texts

The data that a handler can answer with, and its text: no white space, the members of an object in
the order of their names.
-/

namespace Signpost

inductive Json
  | null
  | bool (b : Bool)
  /-- The number `digits / 10 ^ places`. -/
  | number (digits : Int) (places : Nat)
  | string (s : String)
  | array (items : List Json)
  | object (members : List (String × Json))
  deriving Repr, Inhabited

namespace Json

/-! ## Writing -/

def escapeChar (c : Char) : List Char :=
  match c with
  | '"' => ['\\', '"']
  | '\\' => ['\\', '\\']
  | '\x08' => ['\\', 'b']
  | '\x0C' => ['\\', 'f']
  | '\n' => ['\\', 'n']
  | '\r' => ['\\', 'r']
  | '\t' => ['\\', 't']
  | c =>
    if c.toNat < 0x20 then
      let digits := Text.hex c.toNat
      ['\\', 'u'] ++ List.replicate (4 - digits.length) '0' ++ digits
    else [c]

def writeString (s : String) : String :=
  String.ofList ('"' :: s.toList.flatMap escapeChar ++ ['"'])

/-- Whole numbers of 64 bits, with or without sign, are written in full. All others are written as
the double precision numbers next to them. -/
def writeNumber (digits : Int) (places : Nat) : String :=
  if places = 0 ∧ Int64.minValue.toInt ≤ digits ∧ digits < UInt64.size then
    (if digits < 0 then "-" else "") ++ String.ofList (Nat.toDigits 10 digits.natAbs)
  else ((Binary64.ofDecimal (digits < 0) digits.natAbs (-places)).write?).getD "null"

def bracketed (opening closing : String) (parts : List String) : String :=
  opening ++ String.intercalate "," parts ++ closing

mutual

def write : Json → String
  | null => "null"
  | bool b => if b then "true" else "false"
  | number digits places => writeNumber digits places
  | string s => writeString s
  | array items => bracketed "[" "]" (writeItems items)
  | object members =>
    let members : Names String := .ofList (writeMembers members)
    bracketed "\x7b" "\x7d"
      (members.entries.map fun (name, text) => writeString name ++ ":" ++ text)

def writeItems : List Json → List String
  | [] => []
  | item :: items => item.write :: writeItems items

def writeMembers : List (String × Json) → List (String × String)
  | [] => []
  | (name, value) :: members => (name, value.write) :: writeMembers members

end

end Json

end Signpost
