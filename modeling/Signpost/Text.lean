import Signpost.Unicode.Blank

/-!
# Texts as lists of characters

Trimming, replacing and cutting. Paths and rules are read character by character, so the work is
done on `List Char`; the `String` forms wrap it.
-/

namespace Signpost.Text

/-! ## Trimming -/

def trimStart (p : Char → Bool) (cs : List Char) : List Char := cs.dropWhile p

def trimEnd (p : Char → Bool) (cs : List Char) : List Char := (cs.reverse.dropWhile p).reverse

def trim (p : Char → Bool) (cs : List Char) : List Char := trimEnd p (trimStart p cs)

def isSlash (c : Char) : Bool := c == '/'

/-- The text without the slashes at its start. -/
def dropLeadingSlashes (s : String) : String := String.ofList (trimStart isSlash s.toList)

/-- The text without the slashes at its end. -/
def dropTrailingSlashes (s : String) : String := String.ofList (trimEnd isSlash s.toList)

/-- The text without the slashes at either end. -/
def trimSlashes (s : String) : String := String.ofList (trim isSlash s.toList)

/-- The text without the white space at either end. -/
def trimBlanks (s : String) : String := String.ofList (trim Unicode.isBlank s.toList)

/-! ## Cutting -/

/-- The pieces of a text between the places where `sep` stands. -/
def split (sep : Char) (s : String) : List String := (s.toList.splitOn sep).map String.ofList

/-- The text before and after the first place where `sep` stands. -/
def splitFirst? (sep : Char) (s : String) : Option (String × String) :=
  match s.toList.span (· != sep) with
  | (_, []) => none
  | (before, _ :: after) => some (String.ofList before, String.ofList after)

/-- The rest of a text that begins with `start`. -/
def dropStart? (start s : String) : Option String :=
  (start.toList.isPrefixOf? s.toList).map String.ofList

/-! ## Replacing -/

/-- Passes over `skip` characters, then puts `new` in place of every `old`, from left to right. -/
def replaceFrom (old new : List Char) : (skip : Nat) → List Char → List Char
  | _, [] => []
  | n + 1, _ :: cs => replaceFrom old new n cs
  | 0, c :: cs =>
    if old.isPrefixOf (c :: cs) then new ++ replaceFrom old new (old.length - 1) cs
    else c :: replaceFrom old new 0 cs

/-- Puts `new` in place of every `old`, which is not empty. -/
def replace (old new s : String) : String :=
  String.ofList (replaceFrom old.toList new.toList 0 s.toList)

/-! ## Sizes -/

/-- The number of bytes that the characters take in UTF-8. -/
def byteLength (cs : List Char) : Nat := cs.foldr (fun c n => c.utf8Size + n) 0

end Signpost.Text
