import Signpost.Toml.Draft
import Signpost.Toml.Quoted

/-!
# Statements of settings files

A file is a list of statements: headers of tables, headers of further tables in a list, and keys
with their values. Carriage returns before line ends are taken away before statements are read.
-/

namespace Signpost.Toml

inductive Statement
  | header (key : Key)
  /-- The header of one more table of a list. -/
  | element (key : Key)
  | assignment (key : Key) (v : Value)
  deriving Repr, Inhabited

/-- A reader takes from the front of a text, or finds a fault. -/
abbrev Reader := StateT (List Char) (Except Fault)

namespace Reader

/-! ## Characters -/

/-- Takes a character if it is next. -/
def next? (c : Char) : Reader Bool := do
  match ← get with
  | d :: cs => if d = c then set cs; return true else return false
  | [] => return false

def char (c : Char) : Reader Unit := do
  if ← next? c then return else throw (.expected (String.singleton c))

def takeWhile (p : Char → Bool) : Reader (List Char) := modifyGet fun cs => cs.span p

def spaces : Reader Unit := modify fun cs => cs.dropWhile isSpace

/-- Takes a comment up to the end of its line. -/
def comment : Reader Unit := do
  if ← next? '#' then
    let text ← takeWhile (· != '\n')
    if !text.all isPlain then throw (.expected "a comment without control characters")

/-- Takes the rest of a line, which holds nothing but a comment. -/
def restOfLine : Reader Unit := do
  spaces
  comment
  if !(← get).isEmpty then char '\n'

/-- Takes white space, line ends and comments. -/
def gap : (fuel : Nat) → Reader Unit
  | 0 => return
  | fuel + 1 => do
    spaces
    comment
    if ← next? '\n' then gap fuel

/-! ## Keys -/

def quoted (r : List Char → Option (List Char × List Char)) : Reader String := do
  match r (← get) with
  | some (text, rest) => set rest; return String.ofList text
  | none => throw (.expected "a text in quotes")

def isKeyChar (c : Char) : Bool := c.isAlphanum || c == '-' || c == '_'

def keyPart : Reader String := do
  match (← get).head? with
  | some '"' | some '\'' => quoted quotedLine?
  | _ =>
    let cs ← takeWhile isKeyChar
    if cs.isEmpty then throw (.expected "a key") else return String.ofList cs

/-- A key of at most so many parts, with white space around each. -/
def keyOf : (parts : Nat) → Reader Key
  | 0 => throw .tooDeep
  | parts + 1 => do
    spaces
    let name ← keyPart
    spaces
    if ← next? '.' then
      let k ← keyOf parts
      return { k with path := name :: k.path }
    else return { path := [], name }

/-- How many parts a key may have, and how deep values may be nested. -/
def depthLimit : Nat := 79

def key : Reader Key := keyOf depthLimit

/-! ## Values -/

def isWordChar (c : Char) : Bool := c.isAlphanum || "+-_.:".toList.contains c

/-- A value without quotes. A space in one stands between a date and a time. -/
def word : Reader Value := do
  let front ← takeWhile isWordChar
  let cs ←
    match (Date.read? front), (← get) with
    | some (_, []), ' ' :: c :: rest =>
      if c.isDigit then
        set (c :: rest)
        pure (front ++ ' ' :: (← takeWhile isWordChar))
      else pure front
    | _, _ => pure front
  match Value.ofWord? cs with
  | some v => return v
  | none => throw (.expected "a value")

/-- The table of the pairs between braces. -/
def tableOf (pairs : List (Key × Value)) : Except Fault Value :=
  (pairs.foldlM (fun ms (k, v) => Draft.assign k v ms) []).map fun ms => .table (Draft.toMembers ms)

mutual

/-- A value that nests at most `depth` others in each other. -/
def valueOf : (fuel : Nat) → (depth : Nat) → Reader Value
  | 0, _ => throw .tooDeep
  | fuel + 1, depth => do
    match (← get).head? with
    | some '"' | some '\'' => return .string (← quoted quoted?)
    | some '[' =>
      char '['
      if depth = 0 then throw .tooDeep
      return .array (← itemsOf fuel (depth - 1))
    | some '{' =>
      char '{'
      if depth = 0 then throw .tooDeep
      spaces
      if ← next? '}' then return .table []
      tableOf (← pairsOf fuel (depth - 1))
    | _ => word

/-- The items of an array up to its closing bracket. A comma may follow the last one. -/
def itemsOf : (fuel : Nat) → (depth : Nat) → Reader (List Value)
  | 0, _ => throw .tooDeep
  | fuel + 1, depth => do
    gap fuel
    if ← next? ']' then return []
    let v ← valueOf fuel depth
    gap fuel
    if ← next? ',' then return v :: (← itemsOf fuel depth)
    char ']'
    return [v]

/-- The pairs of a table up to its closing brace. -/
def pairsOf : (fuel : Nat) → (depth : Nat) → Reader (List (Key × Value))
  | 0, _ => throw .tooDeep
  | fuel + 1, depth => do
    let k ← key
    char '='
    spaces
    let v ← valueOf fuel depth
    spaces
    if ← next? ',' then return (k, v) :: (← pairsOf fuel depth)
    char '}'
    return [(k, v)]

end

/-- A value. Every step of its reader takes a character or goes from one reader to the next, so the
fuel lasts. -/
def value : Reader Value := do valueOf (2 * (← get).length + 2) depthLimit

/-! ## Statements -/

def header : Reader Statement := do
  char '['
  if ← next? '[' then
    let k ← key
    char ']'
    char ']'
    return .element k
  else
    let k ← key
    char ']'
    return .header k

def assignment : Reader Statement := do
  let k ← key
  char '='
  spaces
  return .assignment k (← value)

/-- All statements, one a line. -/
def statements : (fuel : Nat) → Reader (List Statement)
  | 0 => return []
  | fuel + 1 => do
    gap ((← get).length + 1)
    match (← get).head? with
    | none => return []
    | some c =>
      let s ← if c = '[' then header else assignment
      restOfLine
      return s :: (← statements fuel)

end Reader

end Signpost.Toml
