import Signpost.Regex.Match
import Signpost.Rule.Pattern
import Signpost.Token.Basic

/-!
# Tokens of a match

Every capture of a rule gives one token, in order, without slashes at its ends. A capture of kind
`all` gives one token of kind `any` for each of its segments.
-/

namespace Signpost.Token

/-- What a capture took, without slashes at its ends; nothing rather than an empty text. -/
def trimmed (captured : Option String) : Option String :=
  (captured.map Text.trimSlashes).filter (!·.isEmpty)

/-- The kinds and values of the tokens of a capture. -/
def block (kind : Option Kind) (captured : Option String) : List (Option Kind × Option String) :=
  match kind, trimmed captured with
  | some .all, some rest => (Text.split '/' rest).map fun segment => (some .any, some segment)
  | some .all, none => [(some .any, none)]
  | kind, value => [(kind, value)]

/-- Numbers tokens from 1 on. -/
def number (parts : List (Option Kind × Option String)) : List Token :=
  parts.zipIdx.map fun ((kind, value), i) => .new (i + 1) value kind

/-- The tokens of a rule whose captures took these texts. -/
def ofCaptures (p : Pattern) (captures : List (Option String)) : List Token :=
  number ((captures.zipIdx.map fun (captured, i) => block (p.kind? (i + 1)) captured).flatten)

end Signpost.Token
