import Signpost.Dict
import Signpost.Text

/-!
# Pages

Pages own a fixed path each. Their numbers stand in rules, as `:page:3`, and their paths are kept
from being routed.
-/

namespace Signpost

abbrev PageId := UInt32

namespace PageId

/-- A page number of decimal digits; none that takes more than 32 bits. -/
def ofDigits? (digits : List Char) : Option PageId :=
  if digits ≠ [] ∧ digits.all Char.isDigit then
    let n := Nat.ofDigitChars 10 digits 0
    if n < UInt32.size then some (UInt32.ofNat n) else none
  else none

/-- A page number as it is written in a settings file, where a plus sign may stand before it. -/
def read? : List Char → Option PageId
  | '+' :: digits => ofDigits? digits
  | digits => ofDigits? digits

end PageId

/-- The paths of pages by their numbers. -/
structure Pages where
  paths : Dict PageId String := .empty
  deriving DecidableEq, Repr, Inhabited

namespace Pages

def empty : Pages := {}

def insert (pages : Pages) (id : PageId) (path : String) : Pages := ⟨pages.paths.insert id path⟩

/-- A later path replaces an earlier one with its number. -/
def ofList (entries : List (PageId × String)) : Pages := ⟨.ofList entries⟩

def get? (pages : Pages) (id : PageId) : Option String := pages.paths.get? id

def toList (pages : Pages) : List (PageId × String) := pages.paths.entries

def size (pages : Pages) : Nat := pages.paths.size

def isEmpty (pages : Pages) : Bool := pages.paths.isEmpty

/-- Whether a page has exactly this path. -/
def owns (pages : Pages) (path : String) : Bool := pages.paths.values.contains path

/-! ## References in rules

A reference is `:page:` and digits. A parenthesis right before it and one right after it belong to
it, whether or not they are a pair. -/

structure Reference where
  digits : List Char
  /-- The whole text of the reference, with its parentheses. -/
  text : List Char
  deriving DecidableEq, Repr

namespace Reference

/-- A reference that begins with its colon, at the front of a text. -/
def ofColon? (cs : List Char) : Option Reference := do
  let rest ← ":page:".toList.isPrefixOf? cs
  let digits := rest.takeWhile Char.isDigit
  if digits.isEmpty then none
  else
    let closing := if (rest.drop digits.length).head? = some ')' then [')'] else []
    return ⟨digits, ":page:".toList ++ digits ++ closing⟩

/-- A reference at the front of a text. -/
def atFront? : List Char → Option Reference
  | '(' :: cs => (ofColon? cs).map fun r => { r with text := '(' :: r.text }
  | cs => ofColon? cs

/-- The path of a known page in parentheses; else the reference as it stands. -/
def resolve (pages : Pages) (r : Reference) : List Char :=
  match (PageId.ofDigits? r.digits).bind pages.get? with
  | some path => '(' :: Text.trim Text.isSlash path.toList ++ [')']
  | none => r.text

end Reference

/-- Passes over `skip` characters, then resolves every reference, from left to right. -/
def resolveFrom (pages : Pages) : (skip : Nat) → List Char → List Char
  | _, [] => []
  | n + 1, _ :: cs => resolveFrom pages n cs
  | 0, c :: cs =>
    match Reference.atFront? (c :: cs) with
    | some r => r.resolve pages ++ resolveFrom pages (r.text.length - 1) cs
    | none => c :: resolveFrom pages 0 cs

/-- The rule with its references to known pages replaced by their paths. -/
def resolve (pages : Pages) (rule : List Char) : List Char := resolveFrom pages 0 rule

end Pages

end Signpost
