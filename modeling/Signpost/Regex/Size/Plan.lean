import Signpost.Regex.Expr
import Signpost.Regex.Size.Sequences
import Signpost.Regex.Size.Words
import Signpost.Unicode.Utf8

/-!
# The size of an expression

The plan of an automaton lists its states in the order in which they are added. The size of an
expression is that of the plan for it.
-/

namespace Signpost.Regex

inductive Plan
  | fixed (size : Size)
  | sequences (d : Direction) (sequences : List (List (Nat × Nat)))
  | both (first second : Plan)
  | copies (count : Nat) (body : Plan)

namespace Plan

def grow : Plan → Size → Size
  | fixed size, s => s.plus size
  | sequences d l, s => s.growBySequences d l
  | both a b, s => b.grow (a.grow s)
  | copies count p, s => s.copies p.grow count

def all (plans : List Plan) : Plan := plans.foldr both (fixed {})

def plain (count : Nat) : Plan := fixed (.plain count)

def fork : Plan := fixed (.fork 2)

/-! ## Sets and words -/

/-- A single character is taken byte by byte; ASCII characters are all taken by one state. -/
def ofSet (d : Direction) (set : CharSet) : Plan :=
  match set.only? with
  | some c => plain c.utf8Size
  | none =>
    let codes := set.codes
    if codes.all (·.2 < 0x80) then fixed ((Size.plain 1).plus (.choice codes.length))
    else sequences d (codes.flatMap Unicode.byteRanges)

/-- The bytes of a word in the order in which they are taken. -/
def wordBytes (d : Direction) (word : List Char) : List Nat :=
  let bytes := word.flatMap fun c => Unicode.utf8 c.toNat
  match d with
  | .forward => bytes
  | .backward => bytes.reverse

def ofWords (d : Direction) (words : List (List Char)) : Plan :=
  let words := words.map (wordBytes d)
  fixed ((Size.plain 1).plus (.ofWords ((words.map List.length).foldl max 0 + 1) words))

/-! ## Repetitions -/

/-- Between `least` and `most` copies of a body. A body that may take nothing has to be kept from
being repeated for ever, which takes two states more. -/
def ofTimes (least : Nat) (most : Option Nat) (needsByte : Bool) (body : Plan) : Plan :=
  match least, most with
  | 0, some 1 => all [fork, body, plain 1]
  | 0, none => if needsByte then both fork body else all [body, fork, fork, plain 1]
  | least, none => both (copies least body) fork
  | least, some most =>
    if least = most then copies least body
    else
      all [copies least body, plain (if least = 0 then 2 else 1),
        copies (most - least) (both fork body)]

end Plan

/-! ## Expressions -/

namespace Expr

/-- The fewest characters that the expression takes, if it can match at all. -/
def leastWidth? : Expr → Option Nat
  | empty => some 0
  | char s => if s.codes.isEmpty then none else some 1
  | look _ => some 0
  | group _ e => e.leastWidth?
  | cat a b => do return (← a.leastWidth?) + (← b.leastWidth?)
  | alt a b => do return min (← a.leastWidth?) (← b.leastWidth?)
  | times least _ _ e => e.leastWidth?.map (least * ·)

/-- The plan of an expression that is branch number `branch` of a choice, counted from 1, or of one
that is not a branch. The states in which a choice begins and ends come after its second branch. -/
def plan (d : Direction) : (branch : Nat) → Expr → Plan
  | 0, alt a b =>
    match onAll? word? (a.branches ++ b.branches) with
    | some words => .ofWords d words
    | none => .both (plan d 1 a) (plan d 2 b)
  | n + 1, alt a b =>
    .both (asBranch (n + 1) (plan d 0 a)) (plan d (n + 2) b)
  | n, empty => asBranch n (.plain 1)
  | n, char s => asBranch n (.ofSet d s)
  | n, look _ => asBranch n (.plain 1)
  | n, group _ e =>
    asBranch n <| match d with
      | .forward => .all [.plain 1, plan d 0 e, .plain 1]
      | .backward => plan d 0 e
  | n, cat a b =>
    asBranch n <| match d with
      | .forward => .both (plan d 0 a) (plan d 0 b)
      | .backward => .both (plan d 0 b) (plan d 0 a)
  | n, times least most _ e =>
    asBranch n (.ofTimes least most (e.leastWidth?.any (0 < ·)) (plan d 0 e))
where
  asBranch (n : Nat) (p : Plan) : Plan :=
    match n with
    | 0 => p
    | 2 => .all [p, .plain 2, .fixed .branch, .fixed .branch]
    | 1 => p
    | _ => .both p (.fixed .branch)

/-- Whether a match of the expression has to begin with a condition. -/
def beginsWith (condition : Look) : Expr → Bool
  | look l => l == condition
  | group _ e => e.beginsWith condition
  | cat a b => a.beginsWith condition || (a.takesNothing && b.beginsWith condition)
  | alt a b => a.beginsWith condition && b.beginsWith condition
  | times least _ _ e => 0 < least && e.beginsWith condition
  | _ => false

/-- Whether a match of the expression has to end with a condition. -/
def endsWith (condition : Look) : Expr → Bool
  | look l => l == condition
  | group _ e => e.endsWith condition
  | cat a b => b.endsWith condition || (b.takesNothing && a.endsWith condition)
  | alt a b => a.endsWith condition && b.endsWith condition
  | times least _ _ e => 0 < least && e.endsWith condition
  | _ => false

/-- The automaton of a search: it passes over what comes before the match, unless that has to lie at
an end of the text, and has a state for the match. -/
def searchPlan (d : Direction) (e : Expr) : Plan :=
  let anchored :=
    match d with
    | .forward => e.beginsWith .textStart
    | .backward => e.endsWith .textEnd
  let start := if anchored then .plain 1 else .all [.fork, .plain 1, .fixed (.choice 1)]
  .all [start, (group 0 e).plan d 0, .plain 1]

/-- Whether an automaton of the expression passes the limit, in one direction or the other. -/
def isTooLarge (e : Expr) : Bool :=
  ((e.searchPlan .forward).grow {}).isOver || ((e.searchPlan .backward).grow {}).isOver

end Expr

end Signpost.Regex
