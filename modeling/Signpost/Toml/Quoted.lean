import Signpost.Number.Numeral

/-!
# Quoted texts in settings files

There are four kinds: between double quotes a backslash escapes, between single quotes it does not,
and three quotes of either kind enclose a text of several lines. Each reader takes what follows the
opening quotes, and gives the text and what follows the closing ones.
-/

namespace Signpost.Toml

/-- Characters that stand for themselves in texts and in comments: all but control characters. -/
def isPlain (c : Char) : Bool := c == '\t' || (0x20 ≤ c.toNat && c.toNat != 0x7F)

def isSpace (c : Char) : Bool := c == ' ' || c == '\t'

/-- A read text with a piece before it. -/
def before (piece : List Char) (r : Option (List Char × List Char)) :
    Option (List Char × List Char) :=
  r.map fun (text, rest) => (piece ++ text, rest)

/-! ## Escapes -/

/-- The character with a code of so many hexadecimal digits. -/
def code? (width : Nat) (cs : List Char) : Option (Char × Nat) :=
  let digits := cs.take width
  if digits.length = width ∧ digits.all Numeral.isHexDigit then
    (Numeral.charOfCode? (Numeral.value 16 digits)).map fun c => (c, width + 1)
  else none

/-- The character that an escape stands for, and the length of the escape without its backslash. -/
def escape? : List Char → Option (Char × Nat)
  | 'b' :: _ => some ('\x08', 1)
  | 't' :: _ => some ('\t', 1)
  | 'n' :: _ => some ('\n', 1)
  | 'f' :: _ => some ('\x0C', 1)
  | 'r' :: _ => some ('\r', 1)
  | '"' :: _ => some ('"', 1)
  | '\\' :: _ => some ('\\', 1)
  | 'u' :: cs => code? 4 cs
  | 'U' :: cs => code? 8 cs
  | _ => none

/-- The length of a line's end after a backslash: spaces, the end, and the white space after it. -/
def lineEnd? (cs : List Char) : Option Nat :=
  match cs.dropWhile isSpace with
  | '\n' :: rest => some (cs.length - (rest.dropWhile fun c => isSpace c || c == '\n').length)
  | _ => none

/-! ## Texts of one line -/

/-- Passes over `skip` characters, then reads a text between double quotes. -/
def readBasic : (skip : Nat) → List Char → Option (List Char × List Char)
  | _, [] => none
  | n + 1, _ :: cs => readBasic n cs
  | 0, c :: cs =>
    if c = '"' then some ([], cs)
    else if c = '\\' then
      (escape? cs).bind fun (e, length) => before [e] (readBasic length cs)
    else if isPlain c then before [c] (readBasic 0 cs)
    else none

def readLiteral : List Char → Option (List Char × List Char)
  | [] => none
  | c :: cs =>
    if c = '\'' then some ([], cs)
    else if isPlain c then before [c] (readLiteral cs)
    else none

/-! ## Texts of several lines -/

/-- Three or more quotes at the front of a text close it, and up to two of them belong to it. -/
def closing? (quote : Char) (cs : List Char) : Option (List Char × List Char) :=
  let count := (cs.takeWhile (· == quote)).length
  if count < 3 then none else some (List.replicate (min count 5 - 3) quote, cs.drop (min count 5))

/-- Passes over `skip` characters, then reads a text between three double quotes. -/
def readBasicLines : (skip : Nat) → List Char → Option (List Char × List Char)
  | _, [] => none
  | n + 1, _ :: cs => readBasicLines n cs
  | 0, c :: cs =>
    match closing? '"' (c :: cs) with
    | some r => some r
    | none =>
      if c = '\\' then
        match lineEnd? cs with
        | some length => readBasicLines length cs
        | none => (escape? cs).bind fun (e, length) => before [e] (readBasicLines length cs)
      else if c = '\n' ∨ isPlain c then before [c] (readBasicLines 0 cs)
      else none

def readLiteralLines : List Char → Option (List Char × List Char)
  | [] => none
  | c :: cs =>
    match closing? '\'' (c :: cs) with
    | some r => some r
    | none => if c = '\n' ∨ isPlain c then before [c] (readLiteralLines cs) else none

/-- The rest of a text after the line's end at its front. -/
def dropLineEnd : List Char → List Char
  | '\n' :: cs => cs
  | cs => cs

/-! ## Any quoted text -/

/-- A quoted text at the front of a text, of one line. -/
def quotedLine? : List Char → Option (List Char × List Char)
  | '"' :: cs => readBasic 0 cs
  | '\'' :: cs => readLiteral cs
  | _ => none

/-- A quoted text at the front of a text. A line's end right after three quotes does not count. -/
def quoted? : List Char → Option (List Char × List Char)
  | '"' :: '"' :: '"' :: cs => readBasicLines 0 (dropLineEnd cs)
  | '\'' :: '\'' :: '\'' :: cs => readLiteralLines (dropLineEnd cs)
  | cs => quotedLine? cs

end Signpost.Toml
