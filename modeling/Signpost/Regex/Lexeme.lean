import Signpost.Number.Numeral
import Signpost.Regex.Expr
import Signpost.Unicode.Alphabetic
import Signpost.Unicode.Number

/-!
# The lexemes of a pattern

A pattern is read in two steps. This is the first: it cuts the text into operators, openings of
groups and single places, with brackets and escapes read as a whole.

Not all of the syntax is read. A pattern is refused that has the flag `x`, which passes over white
space and comments, or the flag `R`, which has other line ends; that turns the flag `u` off; or that
names a class by a property of Unicode, as `\p` and `\P` do. So what is proved of every pattern that
can be read says nothing of these.
-/

namespace Signpost.Regex

/-- Why a text is not a regular expression. -/
inductive ReadError
  | unopenedGroup
  | unclosedGroup
  | unclosedClass
  | nothingToRepeat
  | badCount
  | badRange
  | badEscape
  | badFlag
  | badName
  | repeatedName
  | lookAround
  | backReference
  | tooDeep
  | tooLarge
  deriving DecidableEq, Repr

/-- The settings that a pattern can change as it goes, but for `x` and `R`. -/
inductive Flag
  /-- `i`: case does not count. -/
  | caseless
  /-- `m`: `^` and `$` stand at line ends also. -/
  | multiLine
  /-- `s`: the dot takes line feeds also. -/
  | dotAll
  /-- `U`: a repetition is lazy, and greedy with a question mark. -/
  | swapGreed
  /-- `u`: classes are those of Unicode. They always are, so this one is only ever turned on. -/
  | unicode
  deriving DecidableEq, Repr

def Flag.ofLetter? : Char → Option Flag
  | 'i' => some .caseless
  | 'm' => some .multiLine
  | 's' => some .dotAll
  | 'U' => some .swapGreed
  | 'u' => some .unicode
  | _ => none

inductive Lexeme
  /-- A set of characters, with how deep the brackets of its text are nested. -/
  | char (set : CharSet) (depth : Nat)
  | dot
  | lineStart
  | lineEnd
  | look (condition : Look)
  | times (least : Nat) (most : Option Nat) (greedy : Bool)
  | openCapture (name : Option (List Char))
  | openPlain (flags : List (Flag × Bool))
  | setFlags (flags : List (Flag × Bool))
  | close
  | bar
  deriving DecidableEq, Repr

/-! Each reader below gives a value and the text that is left.

## Numbers -/

/-- The number at the front of a text, with white space around it; `none` where no digit stands.
Numbers of 32 bits or less can be read. -/
def readCount (cs : List Char) : Except ReadError (Option Nat × List Char) :=
  let (digits, rest) := (cs.dropWhile Unicode.isBlank).span Char.isDigit
  let rest := rest.dropWhile Unicode.isBlank
  if digits.isEmpty then .ok (none, rest)
  else if Numeral.value 10 digits < UInt32.size then .ok (some (Numeral.value 10 digits), rest)
  else .error .badCount

/-! ## Repetitions -/

/-- A repetition, lazy if a question mark follows. -/
def readGreed (least : Nat) (most : Option Nat) : List Char → Lexeme × List Char
  | '?' :: cs => (.times least most false, cs)
  | cs => (.times least most true, cs)

/-- What follows the opening brace of a counted repetition. -/
def readBraces (cs : List Char) : Except ReadError (Lexeme × List Char) := do
  let (least, cs) ← readCount cs
  match least, cs with
  | some n, '}' :: cs => return readGreed n (some n) cs
  | some n, ',' :: '}' :: cs => return readGreed n none cs
  | some n, ',' :: cs =>
    match ← readCount cs with
    | (some m, '}' :: cs) => if n ≤ m then return readGreed n (some m) cs else throw .badCount
    | _ => throw .badCount
  | _, _ => throw .badCount

/-! ## Escapes -/

/-- What an escape stands for. -/
inductive Escape
  | char (c : Char)
  | set (s : CharSet)
  | look (condition : Look)

/-- Punctuation may be escaped whether or not it has a meaning of its own. -/
def escapable (c : Char) : Bool :=
  c.toNat < 0x80 && !c.isAlphanum && c != '<' && c != '>'

/-- A character by its code: so many hexadecimal digits, or any number of them in braces. -/
def readCode (width : Nat) : List Char → Except ReadError (Char × List Char)
  | '{' :: cs =>
    match cs.span Numeral.isHexDigit with
    | ([], _) => .error .badEscape
    | (digits, '}' :: rest) =>
      match Numeral.charOfCode? (Numeral.value 16 digits) with
      | some c => .ok (c, rest)
      | none => .error .badEscape
    | _ => .error .badEscape
  | cs =>
    let digits := cs.take width
    if digits.length = width ∧ digits.all Numeral.isHexDigit then
      match Numeral.charOfCode? (Numeral.value 16 digits) with
      | some c => .ok (c, cs.drop width)
      | none => .error .badEscape
    else .error .badEscape

def isBoundaryLetter (c : Char) : Bool := c.isAlpha || c == '-'

/-- What follows `\b`: the boundaries named in braces, or else the plain one. -/
def readBoundary : List Char → Except ReadError (Escape × List Char)
  | '{' :: c :: cs =>
    if isBoundaryLetter c then
      match (c :: cs).span isBoundaryLetter with
      | (name, '}' :: rest) =>
        match String.ofList name with
        | "start" => .ok (.look .wordStart, rest)
        | "end" => .ok (.look .wordEnd, rest)
        | "start-half" => .ok (.look .wordStartHalf, rest)
        | "end-half" => .ok (.look .wordEndHalf, rest)
        | _ => .error .badEscape
      | _ => .error .badEscape
    else .ok (.look .wordBoundary, '{' :: c :: cs)
  | cs => .ok (.look .wordBoundary, cs)

/-- What follows a backslash; `p` and `P` are no escapes here. -/
def readEscape : List Char → Except ReadError (Escape × List Char)
  | [] => .error .badEscape
  | c :: cs =>
    match c with
    | 'd' => .ok (.set .digit, cs)
    | 'D' => .ok (.set (.compl .digit), cs)
    | 's' => .ok (.set .space, cs)
    | 'S' => .ok (.set (.compl .space), cs)
    | 'w' => .ok (.set .word, cs)
    | 'W' => .ok (.set (.compl .word), cs)
    | 'a' => .ok (.char '\x07', cs)
    | 'f' => .ok (.char '\x0C', cs)
    | 't' => .ok (.char '\t', cs)
    | 'n' => .ok (.char '\n', cs)
    | 'r' => .ok (.char '\r', cs)
    | 'v' => .ok (.char '\x0B', cs)
    | 'x' => (readCode 2 cs).map fun r => (.char r.1, r.2)
    | 'u' => (readCode 4 cs).map fun r => (.char r.1, r.2)
    | 'U' => (readCode 8 cs).map fun r => (.char r.1, r.2)
    | 'A' => .ok (.look .textStart, cs)
    | 'z' => .ok (.look .textEnd, cs)
    | 'b' => readBoundary cs
    | 'B' => .ok (.look .noWordBoundary, cs)
    | '<' => .ok (.look .wordStart, cs)
    | '>' => .ok (.look .wordEnd, cs)
    | _ =>
      if escapable c then .ok (.char c, cs)
      else if c.isDigit then .error .backReference
      else .error .badEscape

/-! ## Bracketed classes -/

inductive SetOperator
  | inter
  | diff
  | symmDiff
  deriving DecidableEq, Repr

def SetOperator.apply : SetOperator → CharSet → CharSet → CharSet
  | inter => .inter
  | diff => .diff
  | symmDiff => .symmDiff

/-- How deep a list of parts is nested, each of which is nested so deep. A list counts where it has
two parts or more. -/
def listDepth : List Nat → Nat
  | [] => 0
  | [depth] => depth
  | depths => depths.foldl max 0 + 1

/-- A set with how deep its text is nested. -/
structure NestedSet where
  set : CharSet
  depth : Nat

/-- A bracket that is being read: the operand before the last operator, and the union after it. -/
structure OpenClass where
  negated : Bool
  left : Option (NestedSet × SetOperator)
  items : CharSet
  depths : List Nat

namespace OpenClass

def add (k : OpenClass) (s : CharSet) (depth : Nat) : OpenClass :=
  { k with items := .union k.items s, depths := depth :: k.depths }

/-- The set so far; operators apply from left to right. -/
def value (k : OpenClass) : NestedSet :=
  match k.left with
  | some (s, op) => ⟨op.apply s.set k.items, max s.depth (listDepth k.depths) + 1⟩
  | none => ⟨k.items, listDepth k.depths⟩

def operate (k : OpenClass) (op : SetOperator) : OpenClass :=
  { k with left := some (k.value, op), items := .empty, depths := [] }

def closed (k : OpenClass) : NestedSet :=
  ⟨if k.negated then .compl k.value.set else k.value.set, k.value.depth + 1⟩

end OpenClass

/-- Passes over a caret at the front, which turns a class around. -/
def passCaret : List Char → Bool × List Char
  | '^' :: cs => (true, cs)
  | cs => (false, cs)

/-- The front of a bracket behind its caret: hyphens, or else one closing bracket, stand for
themselves. -/
def startItems (k : OpenClass) : List Char → OpenClass × List Char
  | ']' :: cs => (k.add (.single ']') 0, cs)
  | cs => ((cs.takeWhile (· == '-')).foldl (fun k c => k.add (.single c) 0) k,
      cs.dropWhile (· == '-'))

/-- What follows an opening bracket. -/
def startClass (cs : List Char) : OpenClass × List Char :=
  startItems ⟨(passCaret cs).1, none, .empty, []⟩ (passCaret cs).2

/-- What follows a bracket inside brackets, if it is a class with a name. -/
def readNamed? : List Char → Option (CharSet × List Char)
  | ':' :: cs =>
    match (passCaret cs).2.span (· != ':') with
    | (name, ':' :: ']' :: rest) =>
      (namedSet? (String.ofList name)).map fun s =>
        (if (passCaret cs).1 then .compl s else s, rest)
    | _ => none
  | _ => none

/-- One character or class inside brackets. -/
def readClassAtom : List Char → Except ReadError ((Char ⊕ CharSet) × List Char)
  | [] => .error .unclosedClass
  | '\\' :: cs => do
    match ← readEscape cs with
    | (.char c, rest) => return (.inl c, rest)
    | (.set s, rest) => return (.inr s, rest)
    | (.look _, _) => throw .badEscape
  | c :: cs => .ok (.inl c, cs)

def atomSet : Char ⊕ CharSet → CharSet
  | .inl c => .single c
  | .inr s => s

/-- What follows the first character or class of an item. A hyphen makes a range, but not before `]`
or another hyphen. -/
def readRange (first : Char ⊕ CharSet) (cs : List Char) : Except ReadError (CharSet × List Char) :=
  match cs with
  | '-' :: ']' :: _ => .ok (atomSet first, cs)
  | '-' :: '-' :: _ => .ok (atomSet first, cs)
  | '-' :: more => do
    match first, ← readClassAtom more with
    | .inl a, (.inl b, rest) => if a ≤ b then return (.range a b, rest) else throw .badRange
    | _, _ => throw .badRange
  | _ => .ok (atomSet first, cs)

/-- One item inside brackets. -/
def readClassItem (cs : List Char) : Except ReadError (CharSet × List Char) := do
  let (first, rest) ← readClassAtom cs
  readRange first rest

/-- Passes over `skip` characters, then reads brackets up to the one that closes the outermost. -/
def readClass (outer : List OpenClass) (k : OpenClass) :
    (skip : Nat) → List Char → Except ReadError (NestedSet × List Char)
  | _, [] => .error .unclosedClass
  | n + 1, _ :: cs => readClass outer k n cs
  | 0, '[' :: cs =>
    match readNamed? cs with
    | some (s, rest) => readClass outer (k.add s 0) (cs.length - rest.length) cs
    | none =>
      let (inner, rest) := startClass cs
      readClass (k :: outer) inner (cs.length - rest.length) cs
  | 0, ']' :: cs =>
    match outer with
    | [] => .ok (k.closed, cs)
    | o :: outer => readClass outer (o.add k.closed.set k.closed.depth) 0 cs
  | 0, c :: cs =>
    match c, cs with
    | '&', '&' :: _ => readClass outer (k.operate .inter) 1 cs
    | '-', '-' :: _ => readClass outer (k.operate .diff) 1 cs
    | '~', '~' :: _ => readClass outer (k.operate .symmDiff) 1 cs
    | _, _ => do
      let (s, rest) ← readClassItem (c :: cs)
      readClass outer (k.add s 0) (cs.length - rest.length) cs

/-! ## Openings of groups -/

/-- Whether a character may stand in the name of a group, or at its start. -/
def isNameChar (first : Bool) (c : Char) : Bool :=
  if first then c == '_' || Unicode.isAlphabetic c
  else c == '_' || c == '.' || c == '[' || c == ']' || Unicode.isAlphabetic c || Unicode.isNumber c

/-- What follows the opening angle of a named group. -/
def readName (cs : List Char) : Except ReadError (Lexeme × List Char) :=
  match cs.span (· != '>') with
  | (c :: name, _ :: rest) =>
    if isNameChar true c && name.all (isNameChar false) then
      .ok (.openCapture (some (c :: name)), rest)
    else .error .badName
  | _ => .error .badName

/-- Reads flags up to `:` or `)`. Each flag stands at most once, and so does the minus sign, which
turns off what follows it. The flag `u` cannot be turned off. -/
def readFlags (on : Bool) (found : List (Flag × Bool)) :
    List Char → Except ReadError (Lexeme × List Char)
  | [] => .error .unclosedGroup
  | ':' :: cs => .ok (.openPlain found.reverse, cs)
  | ')' :: cs =>
    if found.isEmpty then .error .nothingToRepeat else .ok (.setFlags found.reverse, cs)
  | '-' :: c :: cs =>
    if on && c != ':' && c != ')' then readFlags false found (c :: cs) else .error .badFlag
  | c :: cs =>
    match Flag.ofLetter? c with
    | some f =>
      if found.any (·.1 == f) || (f == .unicode && !on) then .error .badFlag
      else readFlags on ((f, on) :: found) cs
    | none => .error .badFlag

/-- What follows an opening parenthesis. -/
def readOpening : List Char → Except ReadError (Lexeme × List Char)
  | '?' :: '=' :: _ => .error .lookAround
  | '?' :: '!' :: _ => .error .lookAround
  | '?' :: '<' :: '=' :: _ => .error .lookAround
  | '?' :: '<' :: '!' :: _ => .error .lookAround
  | '?' :: 'P' :: '<' :: cs => readName cs
  | '?' :: '<' :: cs => readName cs
  | '?' :: cs => readFlags true [] cs
  | cs => .ok (.openCapture none, cs)

/-! ## The whole text -/

def Escape.lexeme : Escape → Lexeme
  | char c => .char (.single c) 0
  | set s => .char s 0
  | look l => .look l

/-- The lexeme that begins with a character. -/
def readLexeme (c : Char) (cs : List Char) : Except ReadError (Lexeme × List Char) :=
  match c with
  | '(' => readOpening cs
  | ')' => .ok (.close, cs)
  | '|' => .ok (.bar, cs)
  | '[' =>
    (readClass [] (startClass cs).1 0 (startClass cs).2).map fun r =>
      (.char r.1.set r.1.depth, r.2)
  | '?' => .ok (readGreed 0 (some 1) cs)
  | '*' => .ok (readGreed 0 none cs)
  | '+' => .ok (readGreed 1 none cs)
  | '{' => readBraces cs
  | '.' => .ok (.dot, cs)
  | '^' => .ok (.lineStart, cs)
  | '$' => .ok (.lineEnd, cs)
  | '\\' =>
    (readEscape cs).map fun r => (r.1.lexeme, r.2)
  | c => .ok (.char (.single c) 0, cs)

/-- Passes over `skip` characters, then cuts the rest into lexemes. -/
def lexemes : (skip : Nat) → List Char → Except ReadError (List Lexeme)
  | _, [] => .ok []
  | n + 1, _ :: cs => lexemes n cs
  | 0, c :: cs => do
    let (lexeme, rest) ← readLexeme c cs
    return lexeme :: (← lexemes (cs.length - rest.length) cs)

end Signpost.Regex
