import Signpost.Unicode.Range

/-!
# Sets of code points

A set is a list of ranges in ascending order, of which no two overlap or touch, so that a set has
one list. The operations below keep the lists in that form.
-/

namespace Signpost.Unicode

abbrev RangeSet := List (Nat × Nat)

namespace RangeSet

def lastCode : Nat := 0x10FFFF

/-- Adds a range, which takes in the ranges that it overlaps or touches. -/
def insert (first last : Nat) : RangeSet → RangeSet
  | [] => [(first, last)]
  | (a, b) :: rest =>
    if last + 1 < a then (first, last) :: (a, b) :: rest
    else if b + 1 < first then (a, b) :: insert first last rest
    else insert (min first a) (max last b) rest

def union (s t : RangeSet) : RangeSet := s.foldr (fun r t => insert r.1 r.2 t) t

/-- The code points from `start` on that lie in no range. -/
def gaps (start : Nat) : RangeSet → RangeSet
  | [] => if start ≤ lastCode then [(start, lastCode)] else []
  | (a, b) :: rest =>
    if start < a then (start, a - 1) :: gaps (b + 1) rest else gaps (b + 1) rest

def compl (s : RangeSet) : RangeSet := gaps 0 s

def inter (s t : RangeSet) : RangeSet := compl (union (compl s) (compl t))

def diff (s t : RangeSet) : RangeSet := inter s (compl t)

/-- Leaves out the code points of no character, which are the surrogates. -/
def characters (s : RangeSet) : RangeSet :=
  s.flatMap fun (a, b) =>
    (if a < 0xD800 then [(a, min b 0xD7FF)] else []) ++
      (if 0xDFFF < b then [(max a 0xE000, b)] else [])

end RangeSet

end Signpost.Unicode
