/-!
# Ranges of characters as bytes

A range of code points is cut so that each part is written in UTF-8 by the same number of bytes,
and so that the parts of a code that the bytes hold vary independently of each other. Such a part is
a sequence of byte ranges. The parts come in ascending order.
-/

namespace Signpost.Unicode

/-- The bytes that a code point is written with. -/
def utf8 (n : Nat) : List Nat :=
  if n < 0x80 then [n]
  else if n < 0x800 then [0xC0 + n / 0x40, 0x80 + n % 0x40]
  else if n < 0x10000 then [0xE0 + n / 0x1000, 0x80 + n / 0x40 % 0x40, 0x80 + n % 0x40]
  else [0xF0 + n / 0x40000, 0x80 + n / 0x1000 % 0x40, 0x80 + n / 0x40 % 0x40, 0x80 + n % 0x40]

/-- Cuts a range behind a code point that it holds with a later one. -/
def cutBehind (code : Nat) (range : Nat × Nat) : List (Nat × Nat) :=
  if range.1 ≤ code ∧ code < range.2 then [(range.1, code), (code + 1, range.2)] else [range]

/-- Cuts a range into blocks of so many code points in the middle, and what is left at both ends. -/
def cutBlocks (block : Nat) (range : Nat × Nat) : List (Nat × Nat) :=
  let (first, last) := range
  if last < 0x80 ∨ first / block = last / block then [range]
  else
    let start := if first % block = 0 then first else (first / block + 1) * block
    let head := if first % block = 0 then [] else [(first, start - 1)]
    if start / block = last / block ∨ last % block = block - 1 then head ++ [(start, last)]
    else head ++ [(start, last / block * block - 1), (last / block * block, last)]

/-- The sequences of byte ranges of a range of characters. -/
def byteRanges (range : Nat × Nat) : List (List (Nat × Nat)) :=
  let parts := [0x7F, 0x7FF, 0xFFFF].foldl (fun parts code => parts.flatMap (cutBehind code)) [range]
  let parts := [0x40, 0x1000, 0x40000].foldl (fun ps block => ps.flatMap (cutBlocks block)) parts
  parts.map fun (first, last) => (utf8 first).zip (utf8 last)

end Signpost.Unicode
