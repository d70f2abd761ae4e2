import Signpost.Regex.CharSet

/-!
# Regular expressions

The tree that a pattern is read into. Groups carry their number, so the numbering of the groups
can be read off the tree. Trees are put together by `seq`, `oneOf` and `repeated`, which leave out
what has no effect: parts that take nothing, choices inside choices, and choices between letters,
which are sets.
-/

namespace Signpost.Regex

/-- A condition on the place between two characters. -/
inductive Look
  | textStart
  | textEnd
  | lineStart
  | lineEnd
  | wordBoundary
  | noWordBoundary
  | wordStart
  | wordEnd
  | wordStartHalf
  | wordEndHalf
  deriving DecidableEq, Repr

/-- Whether the condition holds between `before` and `after`, which are absent at an end of the
text. -/
def Look.holds (look : Look) (before after : Option Char) : Bool :=
  let inWord (c : Option Char) : Bool := c.any Unicode.isWord
  match look with
  | textStart => before.isNone
  | textEnd => after.isNone
  | lineStart => before.all (· == '\n')
  | lineEnd => after.all (· == '\n')
  | wordBoundary => inWord before != inWord after
  | noWordBoundary => inWord before == inWord after
  | wordStart => !inWord before && inWord after
  | wordEnd => inWord before && !inWord after
  | wordStartHalf => !inWord before
  | wordEndHalf => !inWord after

inductive Expr
  | empty
  | char (set : CharSet)
  | look (condition : Look)
  | group (number : Nat) (body : Expr)
  | cat (a b : Expr)
  | alt (a b : Expr)
  /-- Between `least` and `most` copies of the body, without limit if `most` is absent; a greedy
  repetition tries more copies first. -/
  | times (least : Nat) (most : Option Nat) (greedy : Bool) (body : Expr)
  deriving DecidableEq, Repr, Inhabited

namespace Expr

/-- Whether the expression takes no character, wherever it matches. -/
def takesNothing : Expr → Bool
  | empty => true
  | char _ => false
  | look _ => true
  | group _ e => e.takesNothing
  | cat a b => a.takesNothing && b.takesNothing
  | alt a b => a.takesNothing && b.takesNothing
  | times _ most _ e => most.isSome && e.takesNothing

/-! ### One after the other -/

/-- The expressions that follow one another. -/
def items : Expr → List Expr
  | empty => []
  | cat a b => a.items ++ b.items
  | e => [e]

/-- Puts expressions together that are not themselves put together. -/
def ofItems : List Expr → Expr
  | [] => empty
  | [e] => e
  | e :: es => cat e (ofItems es)

/-- One expression after the other. -/
def seq (es : List Expr) : Expr := ofItems (es.flatMap items)

/-! ### One or the other -/

/-- The expressions to choose from, the preferred one first. -/
def branches : Expr → List Expr
  | alt a b => a.branches ++ b.branches
  | e => [e]

def ofBranches : List Expr → Expr
  | [] => empty
  | [e] => e
  | e :: es => alt e (ofBranches es)

def set? : Expr → Option CharSet
  | char s => some s
  | _ => none

/-- The character of an expression that takes this one only. -/
def letter? (e : Expr) : Option Char := e.set?.bind CharSet.only?

/-- The word of an expression that takes one letter after the other. -/
def word? : Expr → Option (List Char)
  | cat a b => do return (← a.letter?) :: (← b.word?)
  | e => e.letter?.map fun c => [c]

/-- All values, if a function has one on each item of a list. -/
def onAll? {α β : Type} (f : α → Option β) : List α → Option (List β)
  | [] => some []
  | a :: as => do return (← f a) :: (← onAll? f as)

/-- Puts branches together. A choice between letters is one set, and so is a choice between sets. -/
def merged (es : List Expr) : Option Expr :=
  match onAll? letter? es with
  | some letters => some (char (.ranges (letters.map fun c => (c, c))))
  | none =>
    match es.filterMap letter?, onAll? set? es with
    | [], some sets => some (char (sets.foldr .union .empty))
    | _, _ => none

def beginsWithLetter : Expr → Bool
  | cat a _ => a.letter?.isSome
  | e => e.letter?.isSome

/-- Joins the letters that follow one another. -/
def joinLetters : List Expr → List Expr
  | [] => []
  | e :: es =>
    match joinLetters es with
    | next :: rest =>
      if e.letter?.isSome && next.beginsWithLetter then cat e next :: rest else e :: next :: rest
    | [] => [e]

/-- What two lists begin with alike. -/
def sharedFront : List Expr → List Expr → List Expr
  | a :: as, b :: bs => if a = b then a :: sharedFront as bs else []
  | _, _ => []

/-- What all branches begin with, and what is left of each. Each has to be of two parts at least,
where letters that follow one another are one part. -/
def front? (es : List Expr) : Option (List Expr × List Expr) :=
  let parts := es.map fun e => joinLetters e.items
  match parts with
  | [] => none
  | first :: others =>
    let front := others.foldl sharedFront first
    if parts.any (·.length < 2) || front.isEmpty then none
    else some (front, parts.map fun p => seq (p.drop front.length))

/-- One of the expressions, the first that fits. What all of them begin with is matched once. -/
def oneOf (es : List Expr) : Expr :=
  match es.flatMap branches with
  | [e] => e
  | es =>
    match merged es with
    | some e => e
    | none =>
      match front? es with
      | some (front, rests) =>
        let rests := rests.flatMap branches
        seq (front ++ [(merged rests).getD (ofBranches rests)])
      | none => ofBranches es

/-! ### Repetitions -/

/-- A repetition. Of an expression that takes nothing one copy is as good as many. No copies at all
is the empty expression, whose body takes its groups along. -/
def repeated (least : Nat) (most : Option Nat) (greedy : Bool) (body : Expr) : Expr :=
  let (least, most) :=
    if body.takesNothing then (min least 1, some (min 1 (most.getD 1))) else (least, most)
  if most = some 0 then empty
  else if least = 1 ∧ most = some 1 then body
  else times least most greedy body

/-! ### What an expression needs -/

/-- Whether the expression may take no character. -/
def nullable : Expr → Bool
  | empty => true
  | char _ => false
  | look _ => true
  | group _ e => e.nullable
  | cat a b => a.nullable && b.nullable
  | alt a b => a.nullable || b.nullable
  | times least _ _ e => least == 0 || e.nullable

/-- The numbers of the groups, in the order in which they open. -/
def groups : Expr → List Nat
  | empty => []
  | char _ => []
  | look _ => []
  | group n e => n :: e.groups
  | cat a b => a.groups ++ b.groups
  | alt a b => a.groups ++ b.groups
  | times _ _ _ e => e.groups

/-- The largest number of a group. -/
def groupCount (e : Expr) : Nat := e.groups.foldl max 0

end Expr

end Signpost.Regex
