import Mathlib.Data.List.DropRight
import Signpost.Text

/-!
# Trimming

Trimming stops at a character that stays, so what is on its other side does not matter.
-/

namespace Signpost.Text

variable {p : Char → Bool} {c : Char} {cs rest : List Char}

theorem trimStart_append_cons (h : p c = false) (cs rest : List Char) :
    trimStart p (cs ++ c :: rest) = trimStart p cs ++ c :: rest := by
  have hstay : (c :: rest).dropWhile p = c :: rest :=
    List.dropWhile_cons_of_neg (by simp [h])
  rw [trimStart, List.dropWhile_append, hstay]
  split
  · next hempty => rw [trimStart, List.isEmpty_iff.1 hempty, List.nil_append]
  · rfl

theorem trimEnd_append_cons (h : p c = false) (cs rest : List Char) :
    trimEnd p (cs ++ c :: rest) = cs ++ c :: trimEnd p rest := by
  have hstart := trimStart_append_cons h rest.reverse cs.reverse
  have hreverse : (cs ++ c :: rest).reverse = rest.reverse ++ c :: cs.reverse := by simp
  rw [trimStart] at hstart
  rw [trimEnd, hreverse, hstart]
  simp [trimEnd, trimStart]

theorem trimEnd_append (hlast : cs.getLast? = some c) (h : p c = false) (rest : List Char) :
    trimEnd p (cs ++ rest) = cs ++ trimEnd p rest := by
  obtain ⟨front, rfl⟩ := List.getLast?_eq_some_iff.1 hlast
  rw [List.append_assoc, List.append_assoc, List.singleton_append, List.singleton_append,
    trimEnd_append_cons h]

theorem trimEnd_prefix (p : Char → Bool) (cs : List Char) : trimEnd p cs <+: cs := by
  have hsuffix := List.dropWhile_suffix (l := cs.reverse) p
  rwa [← List.reverse_prefix, List.reverse_reverse] at hsuffix

theorem head?_of_head?_trimEnd (h : (trimEnd p cs).head? = some c) : cs.head? = some c := by
  obtain ⟨rest, hrest⟩ := trimEnd_prefix p cs
  rw [← hrest, List.head?_append, h]
  rfl

theorem head?_trimEnd_iff (h : p c = false) :
    (trimEnd p cs).head? = some c ↔ cs.head? = some c := by
  refine ⟨head?_of_head?_trimEnd, fun hhead => ?_⟩
  obtain ⟨rest, rfl⟩ := List.head?_eq_some_iff.1 hhead
  have htrim := trimEnd_append_cons h [] rest
  rw [List.nil_append] at htrim
  rw [htrim]
  rfl

theorem trimEnd_trimEnd (p : Char → Bool) (cs : List Char) :
    trimEnd p (trimEnd p cs) = trimEnd p cs := by
  rw [trimEnd, trimEnd, List.reverse_reverse, List.dropWhile_idempotent p]

theorem trimEnd_eq_nil (h : ∀ c ∈ cs, p c = true) : trimEnd p cs = [] := by
  rw [trimEnd, List.dropWhile_eq_nil_iff.2 fun c hc => h c (List.mem_reverse.1 hc)]
  rfl

theorem trimEnd_eq_self (h : ∀ c ∈ cs.getLast?, p c = false) : trimEnd p cs = cs := by
  cases hlast : cs.getLast? with
  | none =>
    rw [List.getLast?_eq_none_iff.1 hlast]
    rfl
  | some c =>
    have hnil : trimEnd p [] = [] := rfl
    have htrim := trimEnd_append hlast (h c hlast) []
    rwa [List.append_nil, hnil, List.append_nil] at htrim

theorem trimStart_eq_self (h : ∀ c ∈ cs.head?, p c = false) : trimStart p cs = cs := by
  cases cs with
  | nil => rfl
  | cons c cs => exact List.dropWhile_cons_of_neg (by simp [h c rfl])

theorem trim_eq_self (hstart : ∀ c ∈ cs.head?, p c = false)
    (hstop : ∀ c ∈ cs.getLast?, p c = false) : trim p cs = cs := by
  rw [trim, trimStart_eq_self hstart, trimEnd_eq_self hstop]

theorem trim_trimEnd (p : Char → Bool) (cs : List Char) : trim p (trimEnd p cs) = trim p cs := by
  by_cases hall : ∀ c ∈ cs, p c = true
  · rw [trimEnd_eq_nil hall, trim, trim, trimStart, trimStart, List.dropWhile_eq_nil_iff.2 hall]
    rfl
  · -- Nothing on either side of a character that stays has to do with the other side.
    obtain ⟨c, hmem, hc⟩ : ∃ c ∈ cs, p c = false := by simpa using hall
    obtain ⟨before, behind, rfl⟩ := List.append_of_mem hmem
    rw [trimEnd_append_cons hc, trim, trim, trimStart_append_cons hc, trimStart_append_cons hc,
      trimEnd_append_cons hc, trimEnd_append_cons hc, trimEnd_trimEnd]

theorem dropTrailingSlashes_trimSlashes (path : String) :
    dropTrailingSlashes (trimSlashes path) = trimSlashes path := by
  rw [dropTrailingSlashes, trimSlashes, String.toList_ofList, trim, trimEnd_trimEnd]

end Signpost.Text
