import Signpost.Error
import Signpost.Number.Binary64
import Signpost.Token.Basic

/-!
# Comparing tokens with texts

Equality compares numbers where the kind of the token is numeric and both sides are numerals, and
texts everywhere else. Order compares numbers wherever both sides are numerals.
-/

namespace Signpost

inductive Comparison
  | eq
  | identical
  | notEq
  | notIdentical
  | gt
  | ge
  | lt
  | le
  deriving DecidableEq, Repr

def Comparison.ofOperator : String → Except Error Comparison
  | "==" => .ok eq
  | "===" => .ok identical
  | "!=" => .ok notEq
  | "<>" => .ok notEq
  | "!==" => .ok notIdentical
  | ">" => .ok gt
  | ">=" => .ok ge
  | "<" => .ok lt
  | "<=" => .ok le
  | op => .error (.operator op)

namespace Token

/-- Whether a token equals a text. A token without value equals the empty text only. -/
def equals (t : Token) (other : String) : Bool :=
  match t.value with
  | none => other.isEmpty
  | some value =>
    if t.kind.any Kind.isNumeric then
      match Binary64.read? value, Binary64.read? other with
      | some a, some b => a.compare? b == some .eq
      | _, _ => value == other
    else value == other

/-- How a token lies to a text; nowhere if one of them is the numeral of no number. -/
def order? (t : Token) (other : String) : Option Ordering :=
  match Binary64.read? t.text, Binary64.read? other with
  | some a, some b => a.compare? b
  | _, _ => some (compare t.text other)

def compare (t : Token) (op : Comparison) (other : String) : Bool :=
  match op with
  | .eq => t.equals other
  | .identical => t.value == some other
  | .notEq => !t.equals other
  | .notIdentical => t.value != some other
  | .gt => t.order? other == some .gt
  | .ge => t.order? other == some .gt || t.order? other == some .eq
  | .lt => t.order? other == some .lt
  | .le => t.order? other == some .lt || t.order? other == some .eq

/-- Compares by an operator that is given as text. -/
def compareBy (t : Token) (operator other : String) : Except Error Bool :=
  (Comparison.ofOperator operator).map fun op => t.compare op other

def isIn (t : Token) (others : List String) : Bool := others.any t.equals

end Token

end Signpost
