import Signpost.Number.Numeral

/-!
# Dates and times

A moment as a settings file can write it: a date, a time of day, or both, and then perhaps how far
the clock is from universal time.
-/

namespace Signpost.Toml

structure Date where
  year : Nat
  month : Nat
  day : Nat
  deriving DecidableEq, Repr, Inhabited

structure Time where
  hour : Nat
  minute : Nat
  second : Nat
  nanosecond : Nat
  deriving DecidableEq, Repr, Inhabited

inductive Offset
  | universal
  /-- So many minutes ahead of universal time, or behind it. -/
  | minutes (n : Int)
  deriving DecidableEq, Repr, Inhabited

inductive DateTime
  | date (d : Date)
  | time (t : Time)
  | both (d : Date) (t : Time) (offset : Option Offset)
  deriving DecidableEq, Repr, Inhabited

/-! ## Reading -/

/-- A number of exactly so many digits at the front of a text. -/
def readDigits? (count : Nat) (cs : List Char) : Option (Nat × List Char) :=
  let (digits, rest) := cs.splitAt count
  if digits.length = count ∧ digits.all Char.isDigit then some (Numeral.value 10 digits, rest)
  else none

def readChar? (p : Char → Bool) : List Char → Option (List Char)
  | [] => none
  | c :: cs => if p c then some cs else none

namespace Date

def isLeapYear (year : Nat) : Bool := year % 4 == 0 && (year % 100 != 0 || year % 400 == 0)

def daysIn (year month : Nat) : Nat :=
  match month with
  | 2 => if isLeapYear year then 29 else 28
  | 4 | 6 | 9 | 11 => 30
  | _ => 31

/-- A date at the front of a text, as `1979-05-27`. -/
def read? (cs : List Char) : Option (Date × List Char) := do
  let (year, cs) ← readDigits? 4 cs
  let cs ← readChar? (· == '-') cs
  let (month, cs) ← readDigits? 2 cs
  let cs ← readChar? (· == '-') cs
  let (day, cs) ← readDigits? 2 cs
  if 1 ≤ month ∧ month ≤ 12 ∧ 1 ≤ day ∧ day ≤ daysIn year month then some (⟨year, month, day⟩, cs)
  else none

end Date

namespace Time

/-- The hours and minutes at the front of a text, as `07:32`. -/
def readMinutes? (cs : List Char) : Option (Nat × Nat × List Char) := do
  let (hour, cs) ← readDigits? 2 cs
  let cs ← readChar? (· == ':') cs
  let (minute, cs) ← readDigits? 2 cs
  if hour ≤ 23 ∧ minute ≤ 59 then some (hour, minute, cs) else none

/-- The number of nanoseconds that a fraction of a second makes; further digits do not count. -/
def nanoseconds (digits : List Char) : Nat :=
  Numeral.value 10 ((digits.take 9).rightpad 9 '0')

/-- A time at the front of a text, as `07:32:00.5`. A minute may have a leap second. -/
def read? (cs : List Char) : Option (Time × List Char) := do
  let (hour, minute, cs) ← readMinutes? cs
  let cs ← readChar? (· == ':') cs
  let (second, cs) ← readDigits? 2 cs
  if 60 < second then none
  else
    match cs with
    | '.' :: cs =>
      match cs.span Char.isDigit with
      | ([], _) => none
      | (digits, cs) => some (⟨hour, minute, second, nanoseconds digits⟩, cs)
    | cs => some (⟨hour, minute, second, 0⟩, cs)

end Time

namespace Offset

/-- An offset that is the whole of a text, as `Z` or `-07:00`. -/
def read? (cs : List Char) : Option Offset :=
  match cs with
  | ['Z'] => some .universal
  | ['z'] => some .universal
  | '+' :: cs => ahead? cs
  | '-' :: cs =>
    match ahead? cs with
    | some (.minutes n) => some (.minutes (-n))
    | offset => offset
  | _ => none
where
  ahead? (cs : List Char) : Option Offset :=
    match Time.readMinutes? cs with
    | some (hour, minute, []) => some (.minutes (60 * hour + minute))
    | _ => none

end Offset

namespace DateTime

/-- A date or a time or both, as the whole of a text. Between date and time stands a letter T or a
space. -/
def read? (cs : List Char) : Option DateTime :=
  match Date.read? cs with
  | some (d, []) => some (date d)
  | some (d, c :: cs) =>
    if c = 'T' ∨ c = 't' ∨ c = ' ' then
      match Time.read? cs with
      | some (t, []) => some (both d t none)
      | some (t, cs) => (Offset.read? cs).map fun offset => both d t (some offset)
      | none => none
    else none
  | none =>
    match Time.read? cs with
    | some (t, []) => some (time t)
    | _ => none

end DateTime

/-! ## Writing -/

/-- A number with zeros before it, to so many digits. -/
def padded (width n : Nat) : String :=
  let digits := Nat.toDigits 10 n
  String.ofList (List.replicate (width - digits.length) '0' ++ digits)

def Date.text (d : Date) : String :=
  padded 4 d.year ++ "-" ++ padded 2 d.month ++ "-" ++ padded 2 d.day

/-- A fraction of a second without zeros at its end. -/
def Time.fraction (nanosecond : Nat) : String :=
  if nanosecond = 0 then ""
  else
    let digits := (padded 9 nanosecond).toList
    "." ++ String.ofList (digits.reverse.dropWhile (· == '0')).reverse

def Time.text (t : Time) : String :=
  padded 2 t.hour ++ ":" ++ padded 2 t.minute ++ ":" ++ padded 2 t.second
    ++ Time.fraction t.nanosecond

def Offset.text : Offset → String
  | universal => "Z"
  | minutes n =>
    (if n < 0 then "-" else "+") ++ padded 2 (n.natAbs / 60) ++ ":" ++ padded 2 (n.natAbs % 60)

def DateTime.text : DateTime → String
  | date d => d.text
  | time t => t.text
  | both d t offset => d.text ++ "T" ++ t.text ++ (offset.map Offset.text).getD ""

end Signpost.Toml
