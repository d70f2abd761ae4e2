import Signpost.Number.Binary64
import Signpost.Number.Numeral

/-!
# Numbers in settings files

Integers of 64 bits in four bases, and floating point numbers. Underscores may stand between digits.
-/

namespace Signpost.Toml

/-- The digits of a numeral without the underscores between them. -/
def ungrouped? (isDigit : Char → Bool) : List Char → Option (List Char)
  | [] => none
  | [c] => if isDigit c then some [c] else none
  | c :: '_' :: cs => if isDigit c then (ungrouped? isDigit cs).map (c :: ·) else none
  | c :: cs => if isDigit c then (ungrouped? isDigit cs).map (c :: ·) else none

/-- The digits of a decimal numeral, which does not start with a zero unless it is all of it. -/
def decimal? (cs : List Char) : Option (List Char) :=
  match ungrouped? Char.isDigit cs with
  | some ('0' :: _ :: _) => none
  | digits => digits

/-- A sign, if there is one, and the rest. -/
def splitSign : List Char → Bool × List Char
  | '-' :: cs => (true, cs)
  | '+' :: cs => (false, cs)
  | cs => (false, cs)

/-- A number that 64 bits can hold. -/
def inRange? (n : Int) : Option Int :=
  if Int64.minValue.toInt ≤ n ∧ n ≤ Int64.maxValue.toInt then some n else none

/-- The number of a numeral in some base, after the letter for the base. -/
def based? (base : Nat) (cs : List Char) : Option Int :=
  (ungrouped? (Numeral.isDigit base) cs).bind fun digits => inRange? (Numeral.value base digits)

def readInteger? (cs : List Char) : Option Int :=
  match cs with
  | '0' :: 'x' :: cs => based? 16 cs
  | '0' :: 'o' :: cs => based? 8 cs
  | '0' :: 'b' :: cs => based? 2 cs
  | cs =>
    let (negative, cs) := splitSign cs
    (decimal? cs).bind fun digits => inRange? (Binary64.signed negative (Numeral.value 10 digits))

/-- An exponent after its letter: a sign or none, and digits that may start with zeros. -/
def readExponent? (cs : List Char) : Option Int :=
  let (negative, cs) := splitSign cs
  (ungrouped? Char.isDigit cs).map fun digits => Binary64.signed negative (Numeral.value 10 digits)

/-- What follows the whole part of a number: the digits of its fraction and its exponent, one of
which has to be there. -/
def readFraction? : List Char → Option (List Char × Int)
  | '.' :: cs =>
    match cs.span fun c => c != 'e' && c != 'E' with
    | (fraction, []) => (ungrouped? Char.isDigit fraction).map fun digits => (digits, 0)
    | (fraction, _ :: cs) => do
      let digits ← ungrouped? Char.isDigit fraction
      let exponent ← readExponent? cs
      return (digits, exponent)
  | 'e' :: cs => (readExponent? cs).map fun exponent => ([], exponent)
  | 'E' :: cs => (readExponent? cs).map fun exponent => ([], exponent)
  | _ => none

/-- A numeral that is too large is refused, unless it is negative. -/
def readFloat? (cs : List Char) : Option Binary64 :=
  let (negative, cs) := splitSign cs
  match cs with
  | ['i', 'n', 'f'] => some (.infinite negative)
  | ['n', 'a', 'n'] => some .nan
  | cs => do
    let (whole, rest) := cs.span fun c => c != '.' && c != 'e' && c != 'E'
    let whole ← decimal? whole
    let (fraction, exponent) ← readFraction? rest
    let x := Binary64.ofDecimal negative (Numeral.value 10 (whole ++ fraction))
      (exponent - fraction.length)
    if x = .infinite false then none else some x

end Signpost.Toml
