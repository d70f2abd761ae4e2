import Signpost.Regex.Reading
import Signpost.Rule.Kind

/-!
# The pieces of a rule

A rule is cut from left to right into pieces: wildcards, escapes, bracketed classes, parentheses
and single characters. Each piece knows the text it was cut from and the regular expression it
stands for, so the expansion of a rule is the expansions of its pieces in a row.
-/

namespace Signpost

/-- How `:category` is expanded: the segment before the value, and whether the value is a name. -/
structure CategorySetting where
  word : String := "category"
  byName : Bool := false
  deriving DecidableEq, Repr, Inhabited

inductive Piece
  /-- A wildcard; `:pagination` and `:all` may take the slash before them along. -/
  | wildcard (slash : Bool) (kind : Kind)
  /-- A backslash and the character after it, if there is one. -/
  | escape (next : Option Char)
  /-- A bracketed class, from its first bracket on. -/
  | bracket (text : List Char)
  /-- An opening parenthesis, and whether its group is one that captures. -/
  | paren (captures : Bool)
  | char (c : Char)
  deriving DecidableEq, Repr

namespace Piece

/-! ## What a piece stands for -/

/-- The text that a piece was cut from. -/
def source : Piece → List Char
  | wildcard slash kind => (if slash then ['/', ':'] else [':']) ++ kind.name.toList
  | escape next => '\\' :: next.toList
  | bracket text => text
  | paren _ => ['(']
  | char c => [c]

/-- What a wildcard takes from a path. -/
def capture (setting : CategorySetting) : Kind → List Char
  | .any | .urlTitle | .categoryUrlTitle | .username => "([^/]+)".toList
  | .num | .entryId | .categoryId | .memberId => "([0-9]+)".toList
  | .year => "([0-9]\x7b4\x7d)".toList
  | .month | .day => "([0-9]\x7b2\x7d)".toList
  | .pagination => "((?:/P[0-9]+)?)".toList
  | .all => "((?:/.*)?)".toList
  | .category =>
    Regex.escape setting.word.toList ++ '/' ::
      (if setting.byName then "([^/]+)".toList else "([0-9]+)".toList)

/-- The regular expression that a piece stands for. -/
def expansion (setting : CategorySetting) : Piece → List Char
  | wildcard _ kind => capture setting kind
  | p => p.source

/-- What a piece adds to the kinds of the captures: its own, or none for a plain group. -/
def kinds : Piece → List (Option Kind)
  | wildcard _ kind => [some kind]
  | paren true => [none]
  | _ => []

/-! ## Cutting -/

/-- The kinds in the order in which their names are tried, so that a longer name comes before the
names that it begins with. -/
def byName : List Kind :=
  [.pagination, .all, .categoryUrlTitle, .categoryId, .category, .urlTitle, .entryId, .memberId,
   .username, .any, .num, .year, .month, .day]

/-- The kind whose name a text begins with. -/
def named? (cs : List Char) : Option Kind := byName.find? fun k => k.name.toList.isPrefixOf cs

/-- Kinds that take the slash before them along. -/
def takesSlash : Kind → Bool
  | .pagination | .all => true
  | _ => false

/-- The wildcard at the front of a text. -/
def wildcard? : List Char → Option Piece
  | '/' :: ':' :: cs => ((named? cs).filter takesSlash).map (wildcard true)
  | ':' :: cs => (named? cs).map (wildcard false)
  | _ => none

/-- The inside of brackets up to the one that closes them, or to the end of the text. -/
def untilClosing : List Char → List Char
  | [] => []
  | ['\\'] => ['\\']
  | '\\' :: c :: cs => '\\' :: c :: untilClosing cs
  | c :: cs => if c = ']' then [']'] else c :: untilClosing cs

/-- The inside of brackets: a circumflex and a closing bracket at its start are passed over. -/
def inBrackets : List Char → List Char
  | '^' :: ']' :: cs => '^' :: ']' :: untilClosing cs
  | '^' :: cs => '^' :: untilClosing cs
  | ']' :: cs => ']' :: untilClosing cs
  | cs => untilClosing cs

/-- Whether the parenthesis before a text opens a group that captures. -/
def opensCapture : List Char → Bool
  | '?' :: 'P' :: '<' :: _ => true
  | '?' :: '<' :: '=' :: _ => false
  | '?' :: '<' :: '!' :: _ => false
  | '?' :: '<' :: _ => true
  | '?' :: _ => false
  | _ => true

/-- The piece that begins with a character. -/
def first (c : Char) (cs : List Char) : Piece :=
  match wildcard? (c :: cs) with
  | some p => p
  | none =>
    match c with
    | '\\' => escape cs.head?
    | '[' => bracket ('[' :: inBrackets cs)
    | '(' => paren (opensCapture cs)
    | c => char c

/-- Passes over `skip` characters, then cuts the rest into pieces. -/
def cutFrom : (skip : Nat) → List Char → List Piece
  | _, [] => []
  | n + 1, _ :: cs => cutFrom n cs
  | 0, c :: cs => first c cs :: cutFrom ((first c cs).source.length - 1) cs

def cut (rule : List Char) : List Piece := cutFrom 0 rule

end Piece

/-- The expansion of a rule, and the kinds of its captures in order. -/
def expandRule (setting : CategorySetting) (rule : List Char) : List Char × List (Option Kind) :=
  ((Piece.cut rule).flatMap (Piece.expansion setting), (Piece.cut rule).flatMap Piece.kinds)

end Signpost
