/-!
# Double precision numbers

The numbers of the 64 bit binary format, as signs, significands and exponents of two. A decimal
numeral is read to the nearest of them, and of two that are as near to the one with the even
significand. Two numbers are compared exactly.
-/

namespace Signpost

inductive Binary64
  | nan
  | infinite (negative : Bool)
  /-- The number `± significand * 2 ^ exponent`. -/
  | finite (negative : Bool) (significand : Nat) (exponent : Int)
  deriving DecidableEq, Repr

namespace Binary64

/-! ## Comparing -/

def signed (negative : Bool) (n : Nat) : Int := if negative then -(n : Int) else n

/-- Orders two numbers; a value that is not a number has no place in the order. -/
def compare? : Binary64 → Binary64 → Option Ordering
  | nan, _ => none
  | _, nan => none
  | infinite a, infinite b => some (compare (signed a 1) (signed b 1))
  | infinite a, finite .. => some (compare (signed a 1) 0)
  | finite .., infinite b => some (compare 0 (signed b 1))
  | finite a m d, finite b n e =>
    some (compare (signed a (m <<< (d - e).toNat)) (signed b (n <<< (e - d).toNat)))

/-! ## Rounding -/

/-- The natural number nearest to `num / den`, the even one of two. -/
def roundDiv (num den : Nat) : Nat :=
  let q := num / den
  let r := num % den
  if den < 2 * r ∨ (2 * r = den ∧ q % 2 = 1) then q + 1 else q

theorem roundDiv_mul (n : Nat) {den : Nat} (h : 0 < den) : roundDiv (n * den) den = n := by
  simp [roundDiv, h, Nat.ne_of_lt h]

/-- The numerator and denominator of `num / den / 2 ^ e`. -/
def scaled (num den : Nat) (e : Int) : Nat × Nat := (num <<< (-e).toNat, den <<< e.toNat)

/-- The exponent at which the significand of `num / den` has 53 bits, or the least exponent. -/
def exponentOf (num den : Nat) : Int :=
  let guess : Int := (num.log2 : Int) - den.log2 - 52
  let (a, b) := scaled num den guess
  max (-1074) (if a / b < 1 <<< 52 then guess - 1 else guess)

/-- The number nearest to `num / den`. -/
def ofRatio (negative : Bool) (num den : Nat) : Binary64 :=
  if num = 0 then finite negative 0 0
  else
    let e := exponentOf num den
    let (a, b) := scaled num den e
    let m := roundDiv a b
    if 971 < e ∨ (e = 971 ∧ m = 1 <<< 53) then infinite negative else finite negative m e

/-- The number nearest to `± n * 10 ^ exponent`. Powers beyond the format are not worked out. -/
def ofDecimal (negative : Bool) (n : Nat) (exponent : Int) : Binary64 :=
  let size : Int := (Nat.toDigits 10 n).length + exponent
  if n = 0 ∨ size < -400 then finite negative 0 0
  else if 400 < size then infinite negative
  else if 0 ≤ exponent then ofRatio negative (n * Nat.pow 10 exponent.toNat) 1
  else ofRatio negative n (Nat.pow 10 (-exponent).toNat)

/-! ## Reading -/

/-- The exponent at the end of a numeral: a letter e, a sign or none, and digits. -/
def readExponent? : List Char → Option Int
  | [] => some 0
  | c :: cs =>
    if c = 'e' ∨ c = 'E' then
      let (negative, digits) :=
        match cs with
        | '-' :: cs => (true, cs)
        | '+' :: cs => (false, cs)
        | cs => (false, cs)
      if digits ≠ [] ∧ digits.all Char.isDigit then
        some (signed negative (Nat.ofDigitChars 10 digits 0))
      else none
    else none

/-- A numeral without sign: digits with a point somewhere or not at all, and an exponent. -/
def readUnsigned? (negative : Bool) (cs : List Char) : Option Binary64 := do
  let (whole, rest) := cs.span Char.isDigit
  let (fraction, rest) :=
    match rest with
    | '.' :: rest => rest.span Char.isDigit
    | rest => ([], rest)
  let digits := whole ++ fraction
  if digits.isEmpty then none
  else
    let exponent ← readExponent? rest
    return ofDecimal negative (Nat.ofDigitChars 10 digits 0) (exponent - fraction.length)

/-- Reads a decimal numeral, or a name of infinity or of the value that is not a number. -/
def read? (text : String) : Option Binary64 :=
  let (negative, cs) :=
    match text.toList with
    | '-' :: cs => (true, cs)
    | '+' :: cs => (false, cs)
    | cs => (false, cs)
  match String.ofList (cs.map Char.toLower) with
  | "inf" => some (infinite negative)
  | "infinity" => some (infinite negative)
  | "nan" => some nan
  | _ => readUnsigned? negative cs

end Binary64

end Signpost
