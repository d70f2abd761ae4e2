import Signpost.Bins
import Signpost.Regex.Reading

/-!
# Matching

A search keeps a list of threads, the preferred ones first. What a thread has still to match is a
list of tasks. At every place of the text the threads are settled, which takes them to their next
character or to their end, and then moved over one character. Of two threads with the same tasks
only the first is kept: the other could find nothing that the first does not. So for a given pattern
a search takes time in proportion to the text, and the match it finds is the one that trying the
alternatives in order would find first, as long as no alternative comes back to the same tasks at
the same place. One that does is given up, so a copy that takes nothing cannot be repeated for ever.
-/

namespace Signpost.Regex

/-! ## Tasks and threads -/

inductive Task
  | expr (e : Expr)
  /-- The end of a group. -/
  | close (number : Nat)
  /-- A copy of a repetition is done, and more may follow. -/
  | again (greedy : Bool) (body : Expr)
  deriving DecidableEq, Repr

/-- A group's start or end, met at a place of the text. -/
structure Mark where
  number : Nat
  opens : Bool
  index : Nat
  deriving DecidableEq, Repr

/-- Marks are kept latest first. -/
structure Thread where
  todo : List Task
  marks : List Mark
  deriving DecidableEq, Repr

/-- A place of the text: how many characters are before it, and the two beside it. -/
structure Place where
  index : Nat
  before : Option Char
  after : Option Char
  deriving DecidableEq, Repr

namespace Thread

/-- Whether a thread is at its end, or can go on only by taking a character. -/
def waits (t : Thread) : Bool :=
  match t.todo with
  | [] => true
  | .expr (.char _) :: _ => true
  | _ => false

/-- More of a repetition, or no more of it. -/
def choose (greedy : Bool) (more less : List Task) : List (List Task) :=
  if greedy then [more, less] else [less, more]

/-- The ways on from a thread that does not wait, the preferred one first. A repetition whose body
may take no character is entered apart from its own continuation: a copy that takes nothing still
counts as a copy, and then the repetition ends. -/
def moves (place : Place) (t : Thread) : List Thread :=
  match t.todo with
  | [] => []
  | .close n :: rest => [⟨rest, ⟨n, false, place.index⟩ :: t.marks⟩]
  | .again greedy e :: rest =>
    (choose greedy (.expr e :: .again greedy e :: rest) rest).map (⟨·, t.marks⟩)
  | .expr e :: rest =>
    match e with
    | .empty => [⟨rest, t.marks⟩]
    | .char _ => []
    | .look l => if l.holds place.before place.after then [⟨rest, t.marks⟩] else []
    | .group n e => [⟨.expr e :: .close n :: rest, ⟨n, true, place.index⟩ :: t.marks⟩]
    | .cat a b => [⟨.expr a :: .expr b :: rest, t.marks⟩]
    | .alt a b => [⟨.expr a :: rest, t.marks⟩, ⟨.expr b :: rest, t.marks⟩]
    | .times 0 (some 0) _ _ => [⟨rest, t.marks⟩]
    | .times 0 (some (m + 1)) greedy e =>
      (choose greedy (.expr e :: .expr (.times 0 (some m) greedy e) :: rest) rest).map
        (⟨·, t.marks⟩)
    | .times 0 none greedy e =>
      if e.nullable then
        (choose greedy (.expr e :: .again greedy e :: rest) rest).map (⟨·, t.marks⟩)
      else [⟨.again greedy e :: rest, t.marks⟩]
    | .times 1 none greedy e => [⟨.expr e :: .again greedy e :: rest, t.marks⟩]
    | .times (n + 1) most greedy e =>
      [⟨.expr e :: .expr (.times n (most.map (· - 1)) greedy e) :: rest, t.marks⟩]

/-- Takes a character. -/
def take? (c : Char) (t : Thread) : Option Thread :=
  match t.todo with
  | .expr (.char s) :: rest => if s.contains c then some ⟨rest, t.marks⟩ else none
  | _ => none

end Thread

/-! ## Lists of tasks met before -/

/-- Adds a number to a key of 28 bits. The upper bits of the key depend on all numbers added. -/
def mixKey (key n : Nat) : Nat := (key + n + 1) * 2654435761 % 268435456

def CharSet.key : CharSet → Nat
  | ranges ((a, _) :: _) => a.toNat
  | _ => 1

/-- A number that tells most expressions apart by the parts that come first in them. -/
def Expr.key : (depth : Nat) → Expr → Nat
  | 0, _ => 0
  | _, .empty => 2
  | _, .char set => mixKey set.key 3
  | _, .look _ => 4
  | depth + 1, .group n e => mixKey (mixKey (e.key depth) n) 5
  | depth + 1, .cat a b => mixKey (mixKey (a.key depth) (b.key depth)) 6
  | depth + 1, .alt a b => mixKey (mixKey (a.key depth) (b.key (depth / 2))) 7
  | depth + 1, .times least most _ e =>
    mixKey (mixKey (mixKey (e.key (depth / 2)) least) (most.getD 0)) 8

def Task.key : Task → Nat
  | .expr e => e.key 6
  | .close n => mixKey n 9
  | .again _ e => mixKey (e.key 3) 10

/-- The lists of tasks that have been met at a place. -/
abbrev Met := Bins (List Task)

namespace Met

def bits : Nat := 12

def keyOf (todo : List Task) : Nat := todo.foldl (fun key t => mixKey key t.key) 0 >>> 16

def contains (met : Met) (todo : List Task) : Bool := todo ∈ met.bin bits (keyOf todo)

def insert (met : Met) (todo : List Task) : Met := Bins.insert todo bits (keyOf todo) met

@[simp] theorem contains_empty (todo : List Task) : Met.contains Bins.empty todo = false := by
  simp [contains]

@[simp] theorem contains_insert (met : Met) (a b : List Task) :
    (met.insert b).contains a = true ↔ a = b ∨ met.contains a = true := by
  simp [contains, insert, Bins.mem_bin_insert keyOf]

end Met

/-! ## Settling -/

/-- The threads that wait, after every way on at this place has been followed, apart from those that
lead back to tasks met before. -/
def settle (place : Place) : (fuel : Nat) → List Thread → (met : Met) → List Thread
  | 0, _, _ => []
  | _, [], _ => []
  | n + 1, t :: ts, met =>
    if met.contains t.todo then settle place n ts met
    else if t.waits then t :: settle place n ts (met.insert t.todo)
    else settle place n (t.moves place ++ ts) (met.insert t.todo)

/-- No more lists of tasks than this come up while an expression is matched. -/
def Expr.extent : Expr → Nat
  | .empty => 1
  | .char _ => 1
  | .look _ => 1
  | .group _ e => e.extent + 2
  | .cat a b => a.extent + b.extent + 1
  | .alt a b => a.extent + b.extent + 1
  | .times least most _ e => (max least (most.getD 0) + 2) * (e.extent + 2)

/-- Enough to settle all threads: each list of tasks is followed once and has at most two ways
on. -/
def Expr.fuel (e : Expr) : Nat := 4 * e.extent + 8

/-! ## Searching -/

/-- The marks of the preferred match at or after a place. A new thread starts at every place until
a match is found; from then on only threads that are preferred to it go on. -/
def search (e : Expr) (index : Nat) (before : Option Char) (threads : List Thread)
    (found : Option (List Mark)) (cs : List Char) : Option (List Mark) :=
  let started := if found.isNone then threads ++ [⟨[.expr e], []⟩] else threads
  let settled := settle ⟨index, before, cs.head?⟩ e.fuel started Bins.empty
  let (ahead, ended) := settled.span fun t => !t.todo.isEmpty
  let found := (ended.head?.map Thread.marks).or found
  match cs with
  | [] => found
  | c :: cs => search e (index + 1) (some c) (ahead.filterMap (Thread.take? c)) found cs

end Signpost.Regex

namespace Signpost.Regex

/-! ## Matches -/

/-- A match: the text that was searched, and where the groups began and ended. The whole match is
group 0. -/
structure Match where
  text : List Char
  marks : List Mark
  deriving DecidableEq, Repr

namespace Match

/-- Where a group lies; of a group that was repeated, its last copy. -/
def span? (m : Match) (number : Nat) : Option (Nat × Nat) := do
  let stop ← m.marks.find? fun k => k.number == number && !k.opens
  let start ← m.marks.find? fun k => k.number == number && k.opens
  return (start.index, stop.index)

def group? (m : Match) (number : Nat) : Option String :=
  (m.span? number).map fun (start, stop) =>
    String.ofList ((m.text.drop start).take (stop - start))

end Match

/-- The first match in a text. -/
def match? (r : Regex) (text : String) : Option Match :=
  (search (.group 0 r.expr) 0 none [] none text.toList).map fun marks => ⟨text.toList, marks⟩

def isMatch (r : Regex) (text : String) : Bool := (r.match? text).isSome

/-- What the groups took, from group 1 on. -/
def captures? (r : Regex) (text : String) : Option (List (Option String)) :=
  (r.match? text).map fun m => (List.range r.groupCount).map fun n => m.group? (n + 1)

variable {r : Regex} {text : String} {captures : List (Option String)}

theorem isMatch_iff_captures? :
    r.isMatch text = true ↔ ∃ captures, r.captures? text = some captures := by
  rw [isMatch, captures?, ← Option.isSome_iff_exists, Option.isSome_map]

theorem length_captures? (h : r.captures? text = some captures) :
    captures.length = r.groupCount := by
  obtain ⟨m, -, rfl⟩ := Option.map_eq_some_iff.1 h
  rw [List.length_map, List.length_range]

end Signpost.Regex
