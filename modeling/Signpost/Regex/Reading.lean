import Signpost.Regex.Lexeme
import Signpost.Regex.Size.Plan

/-!
# Reading a regular expression

The second step of reading a pattern: the lexemes are put together into a tree, with the open
groups on a stack. Groups are numbered in the order in which they open. A flag holds from where it
is set to the end of the group around it. A pattern is refused if its parts are nested too deep or
if its automaton is too large.
-/

namespace Signpost.Regex

/-! ## Flags -/

structure Flags where
  caseless : Bool := false
  multiLine : Bool := false
  dotAll : Bool := false
  swapGreed : Bool := false
  deriving DecidableEq, Repr, Inhabited

namespace Flags

def set (flags : Flags) (flag : Flag) (on : Bool) : Flags :=
  match flag with
  | .caseless => { flags with caseless := on }
  | .multiLine => { flags with multiLine := on }
  | .dotAll => { flags with dotAll := on }
  | .swapGreed => { flags with swapGreed := on }
  | .unicode => flags

def setAll (flags : Flags) (changes : List (Flag × Bool)) : Flags :=
  changes.foldl (fun f change => f.set change.1 change.2) flags

def ofSet (flags : Flags) (s : CharSet) : Expr :=
  .char (if flags.caseless then s.dropCase else s)

def dot (flags : Flags) : Expr := .char (if flags.dotAll then .all else .allBut '\n')

def lineStart (flags : Flags) : Expr := .look (if flags.multiLine then .lineStart else .textStart)

def lineEnd (flags : Flags) : Expr := .look (if flags.multiLine then .lineEnd else .textEnd)

end Flags

/-! ## What is being read -/

/-- An expression with how deep its text is nested. -/
structure Nested where
  expr : Expr
  depth : Nat
  deriving DecidableEq, Repr, Inhabited

/-- A part of a text that follows others. A part without an expression is a change of flags, which
nothing can repeat. -/
structure Part where
  expr : Option Expr
  depth : Nat
  deriving DecidableEq, Repr, Inhabited

/-- The inside of a group while it is read, latest parts first. -/
structure Level where
  branches : List Nested := []
  parts : List Part := []
  deriving DecidableEq, Repr, Inhabited

namespace Level

def push (level : Level) (e : Expr) (depth : Nat) : Level :=
  { level with parts := ⟨some e, depth⟩ :: level.parts }

def branch (level : Level) : Nested :=
  ⟨.seq (level.parts.reverse.filterMap Part.expr), listDepth (level.parts.map Part.depth)⟩

def nextBranch (level : Level) : Level := ⟨level.branch :: level.branches, []⟩

def whole (level : Level) : Nested :=
  let branches := (level.branch :: level.branches).reverse
  ⟨.oneOf (branches.map Nested.expr), listDepth (branches.map Nested.depth)⟩

end Level

/-- A group whose end has not been read, with the level and the flags around it. -/
structure OpenGroup where
  around : Level
  flags : Flags
  number : Option Nat
  deriving DecidableEq, Repr

def OpenGroup.close (g : OpenGroup) (body : Nested) : Level :=
  let e :=
    match g.number with
    | some n => .group n body.expr
    | none => body.expr
  g.around.push e (body.depth + 1)

structure Reading where
  openGroups : List OpenGroup := []
  level : Level := {}
  flags : Flags := {}
  /-- How many groups have been numbered. -/
  count : Nat := 0
  names : List (List Char) := []
  deriving DecidableEq, Repr, Inhabited

namespace Reading

def push (r : Reading) (e : Expr) (depth : Nat) : Reading :=
  { r with level := r.level.push e depth }

/-- Steps into a group. -/
def enter (r : Reading) (number : Option Nat) (flags : Flags) : Reading :=
  { r with openGroups := ⟨r.level, r.flags, number⟩ :: r.openGroups, level := {}, flags }

def step (r : Reading) : Lexeme → Except ReadError Reading
  | .char s depth => .ok (r.push (r.flags.ofSet s) depth)
  | .dot => .ok (r.push r.flags.dot 0)
  | .lineStart => .ok (r.push r.flags.lineStart 0)
  | .lineEnd => .ok (r.push r.flags.lineEnd 0)
  | .look l => .ok (r.push (.look l) 0)
  | .times least most greedy =>
    match r.level.parts with
    | ⟨some e, depth⟩ :: parts =>
      let e := .repeated least most (greedy != r.flags.swapGreed) e
      .ok { r with level := { r.level with parts := ⟨some e, depth + 1⟩ :: parts } }
    | _ => .error .nothingToRepeat
  | .openCapture name =>
    match name with
    | none => .ok { r.enter (some (r.count + 1)) r.flags with count := r.count + 1 }
    | some name =>
      if r.names.contains name then .error .repeatedName
      else .ok { r.enter (some (r.count + 1)) r.flags with
        count := r.count + 1, names := name :: r.names }
  | .openPlain changes => .ok (r.enter none (r.flags.setAll changes))
  | .setFlags changes =>
    .ok { r with
      flags := r.flags.setAll changes
      level := { r.level with parts := ⟨none, 0⟩ :: r.level.parts } }
  | .close =>
    match r.openGroups with
    | g :: openGroups =>
      .ok { r with openGroups, level := g.close r.level.whole, flags := g.flags }
    | [] => .error .unopenedGroup
  | .bar => .ok { r with level := r.level.nextBranch }

def finish (r : Reading) : Except ReadError Nested :=
  if r.openGroups.isEmpty then .ok r.level.whole else .error .unclosedGroup

end Reading

def Nested.ofLexemes (ls : List Lexeme) : Except ReadError Nested := do
  (← ls.foldlM Reading.step {}).finish

/-- Groups, brackets, repetitions, choices and sequences may be nested so deep. -/
def depthLimit : Nat := 250

def Expr.read (cs : List Char) : Except ReadError Expr := do
  let whole ← Nested.ofLexemes (← lexemes 0 cs)
  if depthLimit < whole.depth then throw .tooDeep
  else if whole.expr.isTooLarge then throw .tooLarge
  else return whole.expr

end Signpost.Regex

namespace Signpost

/-- A regular expression: its text and the tree that the text is read into. -/
structure Regex where
  text : String
  expr : Regex.Expr
  deriving DecidableEq, Repr, Inhabited

namespace Regex

def read (text : String) : Except ReadError Regex :=
  (Expr.read text.toList).map fun expr => ⟨text, expr⟩

/-- The number of groups; a group whose body cannot take part does not count at the end. -/
def groupCount (r : Regex) : Nat := r.expr.groupCount

/-! ## Writing a text so that it stands for itself -/

/-- The characters with a meaning in patterns. -/
def isMeta (c : Char) : Bool := "\\.+*?()|[]\x7b\x7d^$#&-~".toList.contains c

def escape (cs : List Char) : List Char :=
  cs.flatMap fun c => if isMeta c then ['\\', c] else [c]

end Regex

end Signpost
