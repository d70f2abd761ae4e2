/-!
# The size of an automaton

A regular expression stands for an automaton that takes a text byte by byte. Its size is what its
states take up: each has a fixed part, and some have a list of ways on besides.
-/

namespace Signpost.Regex

structure Size where
  states : Nat := 0
  bytes : Nat := 0
  deriving DecidableEq, Repr

namespace Size

def plus (s t : Size) : Size := ⟨s.states + t.states, s.bytes + t.bytes⟩

/-- So many states without a list. -/
def plain (count : Nat) : Size := ⟨count, 32 * count⟩

/-- A state that takes a byte, with so many ranges of bytes to choose from. -/
def choice (ranges : Nat) : Size := ⟨1, 32 + 8 * ranges⟩

/-- A state that takes no byte, with so many ways on. -/
def fork (branches : Nat) : Size := ⟨1, 32 + 4 * branches⟩

/-- One way on more for a fork. -/
def branch : Size := ⟨0, 4⟩

/-- The largest automaton that may be built: ten mebibytes. -/
def limit : Nat := 10485760

def isOver (s : Size) : Bool := limit < s.bytes

/-- Grows by so many copies. Once the limit is passed the rest does not matter. -/
def copies (grow : Size → Size) : (count : Nat) → Size → Size
  | 0, s => s
  | count + 1, s => if s.isOver then s else copies grow count (grow s)

end Size

/-- Whether an automaton takes a text from its start, or backward from its end. -/
inductive Direction
  | forward
  | backward
  deriving DecidableEq, Repr

end Signpost.Regex
