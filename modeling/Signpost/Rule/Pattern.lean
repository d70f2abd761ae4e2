import Signpost.Regex.Match
import Signpost.Rule.Pages
import Signpost.Rule.Piece

/-!
# Compiled rules

A rule is turned into a regular expression that is anchored at both ends, with a kind for each of
its groups. A rule without colon and parenthesis is not a pattern at all: it stands for itself.
-/

namespace Signpost

structure Pattern where
  /-- The rule without slashes at its end, with page references resolved. -/
  source : String
  regex : Regex
  /-- The kinds of the captures as they were met in the rule. -/
  kinds : List (Option Kind)
  deriving DecidableEq, Repr, Inhabited

namespace Pattern

/-! ## Compiling -/

/-- The regular expression for what lies between the anchors, and the kinds of its captures. -/
def body (setting : CategorySetting) (source : List Char) : List Char × List (Option Kind) :=
  if source.contains ':' || source.contains '(' then
    let (expanded, kinds) := expandRule setting source
    (Text.trim Text.isSlash expanded, kinds)
  else (Regex.escape (Text.trim Text.isSlash source), [])

def anchor (body : List Char) : String :=
  String.ofList ("^(?:".toList ++ body ++ ")$".toList)

def compile (rule : String) (pages : Pages) (setting : CategorySetting) :
    Except Regex.ReadError Pattern := do
  let source := pages.resolve (Text.trimEnd Text.isSlash rule.toList)
  let (body, kinds) := body setting source
  let regex ← Regex.read (anchor body)
  return { source := String.ofList source, regex, kinds }

/-! ## Captures -/

def captureCount (p : Pattern) : Nat := p.regex.groupCount

/-- The kind of a capture by its number, from 1 on; groups written out in the rule have none. -/
def kind? (p : Pattern) (number : Nat) : Option Kind :=
  if number = 0 then none else p.kinds[number - 1]?.join

/-- The kinds of all captures in order. -/
def captureKinds (p : Pattern) : List (Option Kind) :=
  (List.range p.captureCount).map fun n => p.kind? (n + 1)

def kindSet (p : Pattern) : KindSet := .ofList (p.kinds.filterMap id)

/-- Whether the data store has to confirm one of the captures. -/
def needsStore (p : Pattern) : Bool := p.kindSet.intersects .needingStore

/-! ## The text before the first wildcard -/

/-- Where the first colon stands, in bytes. -/
def wildcardOffset? (p : Pattern) : Option Nat :=
  match p.source.toList.span (· != ':') with
  | (_, []) => none
  | (before, _) => some (Text.byteLength before)

def hasWildcard (p : Pattern) : Bool := p.wildcardOffset?.isSome

/-- The fixed text before the first colon, without parentheses and leading slashes. -/
def literalStart? (p : Pattern) : Option String :=
  match p.source.toList.span (· != ':') with
  | (_, []) => none
  | (before, _) =>
    some (String.ofList (Text.trimStart Text.isSlash
      (before.filter fun c => c != '(' && c != ')')))

/-- The part of a path after the fixed text, without leading slashes; `none` if nothing is left. -/
def remainder? (p : Pattern) (path : String) : Option String := do
  let start ← p.literalStart?
  let rest := (Text.dropStart? start path).or
    (Text.dropStart? (Text.dropTrailingSlashes start) path)
  let rest := Text.dropLeadingSlashes (rest.getD path)
  if rest.isEmpty then none else some rest

end Pattern

end Signpost
