import Signpost.Bins
import Signpost.Regex.Size.Basic

/-!
# The states for sequences of bytes

A set of characters is a list of sequences of byte ranges, one range to four in each. Sequences that
end alike share states, or those that begin alike where the text is taken backward. What has been
built is looked up in a table of 10000 slots, or of 1000 backward. Each slot shows its latest entry
only, so a state that has lost its slot to another one is built once more. The hash that leads to a
slot is that of Fowler, Noll and Vo, and goes over the numbers of states also, which are numbered
as they are added.
-/

namespace Signpost.Regex

def hashStart : UInt64 := 14695981039346656037

def hashStep (h : UInt64) (n : Nat) : UInt64 := (h ^^^ n.toUInt64) * 1099511628211

/-- The slot of a sequence of numbers in a table. -/
def slot (slots : Nat) (key : List Nat) : Nat := (key.foldl hashStep hashStart).toNat % slots

/-! ## Forward -/

/-- A way on over a range of bytes to a state that is known. -/
structure Arc where
  first : Nat
  last : Nat
  next : Nat
  deriving DecidableEq, Repr

def Arc.key (a : Arc) : List Nat := [a.first, a.last, a.next]

/-- A state that is being built: its arcs, the latest first, and the range of the arc whose end is
still being built. -/
structure OpenState where
  arcs : List Arc := []
  range : Option (Nat × Nat) := none

def OpenState.settled (s : OpenState) (next : Nat) : List Arc :=
  match s.range with
  | some (first, last) => ⟨first, last, next⟩ :: s.arcs
  | none => s.arcs

/-- The states of a set while they are built. -/
structure ForwardTable where
  size : Size
  slots : Bins (List Arc × Nat) := .empty

namespace ForwardTable

/-- The number of the state with these arcs, which come latest first. -/
def state (t : ForwardTable) (arcs : List Arc) : Nat × ForwardTable :=
  let n := slot 10000 (arcs.reverse.flatMap Arc.key)
  match (t.slots.bin 14 n).head?.filter (·.1 == arcs) with
  | some (_, number) => (number, t)
  | none =>
    (t.size.states,
      ⟨t.size.plus (.choice arcs.length), t.slots.insert (arcs, t.size.states) 14 n⟩)

/-- Settles a chain of open states, each at the end of the one before; the last one goes on to
`target`. -/
def close (target : Nat) : List OpenState → ForwardTable → Nat × ForwardTable
  | [], t => (target, t)
  | s :: deeper, t =>
    let (next, t) := close target deeper t
    t.state (s.settled next)

/-- Adds a sequence to a chain of open states. The states that it has in common with the sequence
before stay open. -/
def add (target : Nat) :
    List (Nat × Nat) → List OpenState → ForwardTable → List OpenState × ForwardTable
  | r :: rs, s :: deeper, t =>
    if s.range = some r then
      let (deeper, t) := add target rs deeper t
      (s :: deeper, t)
    else
      let (next, t) := close target deeper t
      (⟨s.settled next, some r⟩ :: rs.map (⟨[], some ·⟩), t)
  | rs, _, t => (rs.map (⟨[], some ·⟩), t)

end ForwardTable

def growForward (sequences : List (List (Nat × Nat))) (s : Size) : Size :=
  let target := s.states
  let (chain, t) := sequences.foldl
    (fun (chain, t) sequence => ForwardTable.add target sequence chain t)
    ([{}], { size := s.plus (.plain 1) : ForwardTable })
  (ForwardTable.close target chain t).2.size

/-! ## Backward -/

/-- A state that takes a byte of a range and goes on to `next`. -/
structure ByteState where
  next : Nat
  first : Nat
  last : Nat
  deriving DecidableEq, Repr

structure BackwardTable where
  size : Size
  slots : Bins (ByteState × Nat) := .empty

namespace BackwardTable

/-- The number of a state. -/
def state (t : BackwardTable) (b : ByteState) : Nat × BackwardTable :=
  let n := slot 1000 [b.next, b.first, b.last]
  match (t.slots.bin 10 n).head?.filter (·.1 == b) with
  | some (_, number) => (number, t)
  | none => (t.size.states, ⟨t.size.plus (.plain 1), t.slots.insert (b, t.size.states) 10 n⟩)

/-- Adds the states of a sequence, whose first byte is taken last. -/
def add (target : Nat) (t : BackwardTable) (sequence : List (Nat × Nat)) : BackwardTable :=
  (sequence.foldl (fun (next, t) (first, last) => state t ⟨next, first, last⟩) (target, t)).2

end BackwardTable

/-- One state branches to the sequences, and all of them end in one state. -/
def growBackward (sequences : List (List (Nat × Nat))) (s : Size) : Size :=
  let s := s.plus (.fork sequences.length)
  (sequences.foldl (BackwardTable.add s.states) { size := s.plus (.plain 1) : BackwardTable }).size

/-- Grows by the states for one of the sequences. -/
def Size.growBySequences (d : Direction) (sequences : List (List (Nat × Nat))) (s : Size) : Size :=
  match d with
  | .forward => growForward sequences s
  | .backward => growBackward sequences s

end Signpost.Regex
