import Signpost.Number.Numeral
import Signpost.Unicode.Blank
import Signpost.Unicode.Fold
import Signpost.Unicode.Digit
import Signpost.Unicode.Word

/-!
# Sets of characters

What one place of a pattern accepts: ranges, named classes, and the set operations that a
bracketed class is written with.
-/

namespace Signpost.Regex

inductive CharSet
  | ranges (rs : List (Char × Char))
  | digit
  | space
  | word
  | union (a b : CharSet)
  | inter (a b : CharSet)
  | diff (a b : CharSet)
  | symmDiff (a b : CharSet)
  | compl (a : CharSet)
  /-- The characters equal to one of `a` but for case. -/
  | caseless (a : CharSet)
  deriving DecidableEq, Repr, Inhabited

namespace CharSet

def contains : CharSet → Char → Bool
  | ranges rs, c => rs.any fun r => r.1 ≤ c && c ≤ r.2
  | digit, c => Unicode.isDecimal c
  | space, c => Unicode.isBlank c
  | word, c => Unicode.isWord c
  | union a b, c => a.contains c || b.contains c
  | inter a b, c => a.contains c && b.contains c
  | diff a b, c => a.contains c && !b.contains c
  | symmDiff a b, c => a.contains c != b.contains c
  | compl a, c => !a.contains c
  | caseless a, c => a.contains c || (Unicode.caseVariants c).any a.contains

/-- The code points of the characters in the set, as ranges. -/
def codes : CharSet → Unicode.RangeSet
  | ranges rs => (Unicode.RangeSet.union (rs.map fun r => (r.1.toNat, r.2.toNat)) []).characters
  | digit => Unicode.decimalRanges
  | space => Unicode.blankRanges
  | word => Unicode.wordRanges
  | union a b => a.codes.union b.codes
  | inter a b => a.codes.inter b.codes
  | diff a b => a.codes.diff b.codes
  | symmDiff a b => (a.codes.diff b.codes).union (b.codes.diff a.codes)
  | compl a => a.codes.compl.characters
  | caseless a => a.codes.withCaseVariants

/-- The character of a set that has only one. -/
def only? (s : CharSet) : Option Char :=
  match s.codes with
  | [(a, b)] => if a = b then Numeral.charOfCode? a else none
  | _ => none

def empty : CharSet := ranges []

def single (c : Char) : CharSet := ranges [(c, c)]

def range (first last : Char) : CharSet := ranges [(first, last)]

def all : CharSet := compl empty

def allBut (c : Char) : CharSet := compl (single c)

@[simp] theorem contains_single (c d : Char) : (single c).contains d = true ↔ d = c := by
  simp only [single, contains, List.any_cons, List.any_nil, Bool.or_false, Bool.and_eq_true,
    decide_eq_true_eq]
  exact ⟨fun h => Char.le_antisymm h.2 h.1, fun h => h ▸ ⟨Char.le_refl _, Char.le_refl _⟩⟩

@[simp] theorem contains_empty (c : Char) : empty.contains c = false := rfl

@[simp] theorem contains_all (c : Char) : all.contains c = true := rfl

@[simp] theorem contains_allBut (c d : Char) : (allBut c).contains d = true ↔ d ≠ c := by
  rw [allBut, contains, Bool.not_eq_true', Bool.eq_false_iff, Ne, contains_single]

/-! ## Without regard to case

Case is set aside before a set is turned into its complement, and on both sides of an operator,
so that `[^x]` refuses both letters. -/

def dropCaseWithin : CharSet → CharSet
  | union a b => union a.dropCaseWithin b.dropCaseWithin
  | inter a b => inter (caseless a.dropCaseWithin) (caseless b.dropCaseWithin)
  | diff a b => diff (caseless a.dropCaseWithin) (caseless b.dropCaseWithin)
  | symmDiff a b => symmDiff (caseless a.dropCaseWithin) (caseless b.dropCaseWithin)
  | compl a => compl (caseless a.dropCaseWithin)
  | s => s

/-- The set as it reads where case does not count. -/
def dropCase : CharSet → CharSet
  | compl a => compl (caseless a.dropCaseWithin)
  | s => caseless s.dropCaseWithin

end CharSet

/-! ## Classes with a name -/

open CharSet in
/-- The sets written `[:name:]` inside brackets; they hold ASCII characters only. -/
def namedSet? : String → Option CharSet
  | "alnum" => some (ranges [('0', '9'), ('A', 'Z'), ('a', 'z')])
  | "alpha" => some (ranges [('A', 'Z'), ('a', 'z')])
  | "ascii" => some (range '\x00' '\x7F')
  | "blank" => some (ranges [('\t', '\t'), (' ', ' ')])
  | "cntrl" => some (ranges [('\x00', '\x1F'), ('\x7F', '\x7F')])
  | "digit" => some (range '0' '9')
  | "graph" => some (range '!' '~')
  | "lower" => some (range 'a' 'z')
  | "print" => some (range ' ' '~')
  | "punct" => some (ranges [('!', '/'), (':', '@'), ('[', '\x60'), ('\x7b', '~')])
  | "space" => some (ranges [('\t', '\r'), (' ', ' ')])
  | "upper" => some (range 'A' 'Z')
  | "word" => some (ranges [('0', '9'), ('A', 'Z'), ('_', '_'), ('a', 'z')])
  | "xdigit" => some (ranges [('0', '9'), ('A', 'F'), ('a', 'f')])
  | _ => none

end Signpost.Regex
