import Signpost.Number.Binary64

/-!
# The shortest text of a double precision number

A number is written with the fewest digits that read back as the same number, and of the numerals
that short with the nearest one.
-/

namespace Signpost

/-- The number `digits * 10 ^ exponent`. -/
structure Decimal where
  digits : Nat
  exponent : Int
  deriving DecidableEq, Repr

namespace Decimal

/-- The digits without the zeros at their end, and the power of ten of the first. -/
def leading (d : Decimal) : List Char × Int :=
  let all := Nat.toDigits 10 d.digits
  ((all.reverse.dropWhile (· == '0')).reverse, d.exponent + all.length - 1)

/-- Writes a power of ten with at least two digits. -/
def writePower (power : Int) : List Char :=
  let digits := Nat.toDigits 10 power.natAbs
  (if power < 0 then ['e', '-'] else ['e', '+']) ++
    (if digits.length < 2 then '0' :: digits else digits)

/-- Numbers from 0.00001 up to 10 ^ 16 are written with all their places, and with at least one
behind the point; all others with one digit before the point and a power of ten. -/
def write (d : Decimal) : List Char :=
  let (digits, power) := d.leading
  if power < -5 ∨ 16 ≤ power then
    match digits with
    | first :: second :: rest => first :: '.' :: second :: rest ++ writePower power
    | digits => digits ++ writePower power
  else if power < 0 then
    ['0', '.'] ++ List.replicate (-power - 1).toNat '0' ++ digits
  else
    let size := power.toNat + 1
    let whole := digits.take size
    whole ++ List.replicate (size - whole.length) '0' ++ '.' ::
      (if digits.length ≤ size then ['0'] else digits.drop size)

end Decimal

namespace Binary64

/-- The power of ten of the first digit of `num / den`. -/
def powerOfTen (num den : Nat) : Int :=
  let guess : Int := ((Nat.toDigits 10 num).length : Int) - (Nat.toDigits 10 den).length
  if num * Nat.pow 10 (-guess).toNat < den * Nat.pow 10 guess.toNat then guess - 1 else guess

/-- Of the two numerals with so many digits next to a number, the nearer one that reads back. -/
def nearestWith? (x : Binary64) (num den : Nat) (power : Int) (count : Nat) : Option Decimal :=
  let exponent := power + 1 - count
  let a := num * Nat.pow 10 (-exponent).toNat
  let b := den * Nat.pow 10 exponent.toNat
  let low := a / b
  let candidates := if b ≤ 2 * (a % b) then [low + 1, low] else [low, low + 1]
  (candidates.find? fun n => ofDecimal false n exponent == x).map fun n => ⟨n, exponent⟩

/-- The shortest numeral of `significand * 2 ^ exponent`. Seventeen digits are always enough. -/
def shortest (significand : Nat) (exponent : Int) : Decimal :=
  let num := significand <<< exponent.toNat
  let den := 1 <<< (-exponent).toNat
  let power := powerOfTen num den
  ((List.range 17).findSome? fun n =>
    nearestWith? (finite false significand exponent) num den power (n + 1)).getD ⟨num / den, 0⟩

/-- The text of a number, if it is one. -/
def write? : Binary64 → Option String
  | finite negative significand exponent =>
    let text := if significand = 0 then ['0', '.', '0'] else (shortest significand exponent).write
    some (String.ofList (if negative then '-' :: text else text))
  | _ => none

end Binary64

end Signpost
