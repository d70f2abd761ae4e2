import Signpost.Regex.Size.Basic

/-!
# The states for a choice of words

Words that begin alike share states, unless a word ends where they part from each other and stands
between them: what is preferred to that end is kept apart from what is not.
-/

namespace Signpost.Regex

/-- Words of bytes that a state goes on with, the preferred ones first, cut at the words that are
empty. An empty word ahead of all others counts once. -/
def wordChunks : List (List Nat) → (chunks : List (List (List Nat))) → (chunk : List (List Nat)) →
    List (List (List Nat))
  | [], chunks, chunk => (chunk.reverse :: chunks).reverse
  | [] :: words, chunks, chunk =>
    if chunk.isEmpty && !chunks.isEmpty && chunks.all List.isEmpty then
      wordChunks words chunks chunk
    else wordChunks words (chunk.reverse :: chunks) []
  | word :: words, chunks, chunk => wordChunks words chunks (word :: chunk)

/-- What is left of the words that begin with a byte. -/
def wordsAfter (byte : Nat) (words : List (List Nat)) : List (List Nat) :=
  words.filterMap fun
    | [] => none
    | b :: rest => if b = byte then some rest else none

/-- The states from one state on for words of bytes of limited length. -/
def Size.ofWords : (length : Nat) → List (List Nat) → Size
  | 0, _ => {}
  | length + 1, words =>
    let chunks := wordChunks words [] []
    let sizes := chunks.map fun chunk =>
      let bytes := (chunk.filterMap List.head?).eraseDups
      let deeper := bytes.map fun byte => ofWords length (wordsAfter byte chunk)
      match bytes.length with
      | 0 => deeper
      | 1 => plain 1 :: deeper
      | n => choice n :: deeper
    let branches := (chunks.filter (!·.isEmpty)).length + (chunks.length - 1)
    let sizes := if branches ≤ 1 then sizes.flatten else fork branches :: sizes.flatten
    if words.all List.isEmpty then {} else sizes.foldl plus {}

end Signpost.Regex
