import Signpost.Proofs.Regex.Lexing
import Signpost.Rule.Pages
import Signpost.Rule.Piece

/-!
# Cutting a rule

What the scanners of a rule read at the front of a text: the references to pages, and the pieces.
-/

namespace Signpost

/-- A text that ends an item of a rule: nothing, or a slash and more. -/
def EndsItem (rest : List Char) : Prop := rest = [] ∨ ∃ cs, rest = '/' :: cs

theorem EndsItem.ne_colon {rest : List Char} (h : EndsItem rest) (cs : List Char) :
    rest ≠ ':' :: cs := by
  rintro rfl
  obtain h | ⟨cs', h⟩ := h
  · cases h
  · cases h

/-! ## References to pages -/

theorem PageId.digits_of_ofDigits? {digits : List Char} {id : PageId}
    (h : PageId.ofDigits? digits = some id) : digits ≠ [] ∧ digits.all Char.isDigit = true := by
  rw [PageId.ofDigits?] at h
  split at h
  · assumption
  · cases h

namespace Pages

variable {pages : Pages} {c : Char} {cs rest : List Char}

theorem resolveFrom_skip (pages : Pages) (w rest : List Char) :
    resolveFrom pages w.length (w ++ rest) = resolveFrom pages 0 rest := by
  induction w with
  | nil => rfl
  | cons c w ih => exact ih

theorem resolveFrom_none (h : Reference.atFront? (c :: cs) = none) :
    resolveFrom pages 0 (c :: cs) = c :: resolveFrom pages 0 cs := by
  rw [resolveFrom, h]

theorem resolveFrom_front {r : Reference} {w : List Char} (htext : r.text = c :: w)
    (h : Reference.atFront? (c :: (w ++ rest)) = some r) :
    resolveFrom pages 0 (c :: (w ++ rest)) = r.resolve pages ++ resolveFrom pages 0 rest := by
  rw [resolveFrom, h]
  simp only [htext, List.length_cons, Nat.add_sub_cancel, resolveFrom_skip]

theorem ofColon?_other (h : c ≠ ':') (cs : List Char) : Reference.ofColon? (c :: cs) = none := by
  have hstart : ":page:".toList.isPrefixOf? (c :: cs) =
      if ':' == c then "page:".toList.isPrefixOf? cs else none := rfl
  have hcolon : ¬ (':' == c) = true := fun hc => h (eq_of_beq hc).symm
  rw [Reference.ofColon?, hstart, if_neg hcolon]
  rfl

theorem atFront?_other (h : c ≠ ':') (hparen : c ≠ '(') (cs : List Char) :
    Reference.atFront? (c :: cs) = none := by
  rw [Reference.atFront?.eq_2 _ fun _ hc => hparen (List.cons.inj hc).1]
  exact ofColon?_other h cs

theorem resolveFrom_letters (h : ∀ c ∈ cs, c ≠ ':' ∧ c ≠ '(') (rest : List Char) :
    resolveFrom pages 0 (cs ++ rest) = cs ++ resolveFrom pages 0 rest := by
  induction cs with
  | nil => rfl
  | cons c cs ih =>
    obtain ⟨⟨hcolon, hparen⟩, hcs⟩ := List.forall_mem_cons.1 h
    rw [List.cons_append, resolveFrom_none (atFront?_other hcolon hparen _), ih hcs]
    rfl

theorem ofColon?_digits {digits : List Char} (hdigits : digits ≠ [])
    (hall : digits.all Char.isDigit = true) (hrest : ∀ c ∈ rest.head?, c.isDigit = false) :
    Reference.ofColon? (":page:".toList ++ digits ++ rest) =
      some ⟨digits, ":page:".toList ++ digits ++ if rest.head? = some ')' then [')'] else []⟩ := by
  have hstart : ":page:".toList.isPrefixOf? (":page:".toList ++ digits ++ rest) =
      some (digits ++ rest) := by
    rw [List.append_assoc]
    rfl
  have htake : (digits ++ rest).takeWhile Char.isDigit = digits := by
    rw [List.takeWhile_append_of_pos (List.all_eq_true.1 hall)]
    cases rest with
    | nil => simp
    | cons c cs => simp [hrest c rfl]
  have hempty : digits.isEmpty = false := by simpa using hdigits
  simp only [Reference.ofColon?, hstart, Option.bind_eq_bind, Option.bind_some, htake, hempty,
    Bool.false_eq_true, if_false, List.drop_left]
  rfl

theorem ofColon?_page {digits : List Char} (hdigits : digits ≠ [])
    (hall : digits.all Char.isDigit = true) (hrest : EndsItem rest) :
    Reference.ofColon? (":page:".toList ++ digits ++ rest) =
      some ⟨digits, ":page:".toList ++ digits⟩ := by
  rw [ofColon?_digits hdigits hall]
  · obtain rfl | ⟨cs, rfl⟩ := hrest <;> simp
  · obtain rfl | ⟨cs, rfl⟩ := hrest <;> simp

end Pages

/-! ## Pieces -/

namespace Piece

variable {c : Char} {cs rest : List Char}

theorem cutFrom_skip (w rest : List Char) : cutFrom w.length (w ++ rest) = cutFrom 0 rest := by
  induction w with
  | nil => rfl
  | cons c w ih => exact ih

theorem cutFrom_source {p : Piece} {w : List Char} (hsource : p.source = c :: w)
    (hfirst : first c (w ++ rest) = p) :
    cutFrom 0 (c :: (w ++ rest)) = p :: cutFrom 0 rest := by
  rw [cutFrom, hfirst, hsource, List.length_cons, Nat.add_sub_cancel, cutFrom_skip]

theorem wildcard?_other (h : c ≠ ':') (hslash : c = '/' → ∀ r, cs ≠ ':' :: r) :
    wildcard? (c :: cs) = none := by
  unfold wildcard?
  split
  · rename_i hcs
    obtain ⟨rfl, rfl⟩ := List.cons.inj hcs
    exact absurd rfl (hslash rfl _)
  · rename_i hcs
    exact absurd (List.cons.inj hcs).1 h
  · rfl

theorem first_char (h : wildcard? (c :: cs) = none) (hc : Regex.isOperator c = false) :
    first c cs = char c := by
  unfold first
  rw [h]
  split
  · rename_i hnone
    cases hnone
  · split <;> first | rfl | cases hc

theorem cutFrom_letters (h : ∀ c ∈ cs, c ≠ ':' ∧ Regex.isOperator c = false)
    (hrest : ∀ r, rest ≠ ':' :: r) :
    cutFrom 0 (cs ++ rest) = cs.map char ++ cutFrom 0 rest := by
  induction cs with
  | nil => rfl
  | cons c cs ih =>
    obtain ⟨⟨hcolon, hc⟩, hcs⟩ := List.forall_mem_cons.1 h
    have hnext : ∀ r, cs ++ rest ≠ ':' :: r := by
      intro r hr
      cases cs with
      | nil => exact hrest r hr
      | cons d cs => exact (hcs d List.mem_cons_self).1 (List.cons.inj hr).1
    have hfirst := first_char (wildcard?_other hcolon fun _ => hnext) hc
    have hcut : cutFrom 0 (c :: (cs ++ rest)) = char c :: cutFrom 0 (cs ++ rest) :=
      cutFrom_source (w := []) rfl hfirst
    rw [List.cons_append, hcut, ih hcs]
    rfl

theorem named?_name (k : Kind) (h : EndsItem rest) : named? (k.name.toList ++ rest) = some k := by
  obtain rfl | ⟨cs, rfl⟩ := h <;> cases k <;> rfl

/-! ### Names -/

theorem isPrefixOf_append_cons {name : List Char} (h : c ∉ name) (cs rest : List Char) :
    name.isPrefixOf (cs ++ c :: rest) = name.isPrefixOf cs := by
  induction name generalizing cs with
  | nil => simp
  | cons d name ih =>
    rw [List.mem_cons, not_or] at h
    cases cs with
    | nil => simp [List.isPrefixOf, Ne.symm h.1]
    | cons e cs => rw [List.cons_append, List.isPrefixOf, ih h.2, List.isPrefixOf]

theorem named?_append_cons (h : ∀ k : Kind, c ∉ k.name.toList) (cs rest : List Char) :
    named? (cs ++ c :: rest) = named? cs := by
  unfold named?
  simp only [isPrefixOf_append_cons (h _)]

theorem named?_eq_none_iff : named? cs = none ↔ ∀ k : Kind, ¬ k.name.toList <+: cs := by
  have hmem : ∀ k : Kind, k ∈ byName := by
    intro k
    cases k <;> decide
  simp only [named?, List.find?_eq_none, hmem, forall_const, List.isPrefixOf_iff_prefix]

/-! ## Cutting loses nothing -/

theorem prefix_untilClosing (cs : List Char) : untilClosing cs <+: cs := by
  fun_induction untilClosing cs with
  | case1 => exact List.prefix_refl _
  | case2 => exact List.prefix_refl _
  | case3 c cs ih => exact (List.prefix_cons_inj _).2 ((List.prefix_cons_inj _).2 ih)
  | case4 cs => exact List.prefix_append [']'] cs
  | case5 c cs _ _ _ ih => exact (List.prefix_cons_inj _).2 ih

theorem prefix_inBrackets (cs : List Char) : inBrackets cs <+: cs := by
  have hone : ∀ c cs, c :: untilClosing cs <+: c :: cs := fun c cs =>
    (List.prefix_cons_inj c).2 (prefix_untilClosing cs)
  unfold inBrackets
  split
  · exact (List.prefix_cons_inj _).2 (hone _ _)
  · exact hone _ _
  · exact hone _ _
  · exact prefix_untilClosing _

theorem name_prefix_of_named? {k : Kind} (h : named? cs = some k) : k.name.toList <+: cs := by
  have hprefix : k.name.toList.isPrefixOf cs = true :=
    List.find?_some (p := fun k : Kind => k.name.toList.isPrefixOf cs) h
  exact List.isPrefixOf_iff_prefix.1 hprefix

theorem source_wildcard {p : Piece} (h : wildcard? (c :: cs) = some p) :
    ∃ w, p.source = c :: w ∧ w <+: cs := by
  unfold wildcard? at h
  split at h
  · next rest hcs =>
    obtain ⟨rfl, rfl⟩ := List.cons.inj hcs
    obtain ⟨k, hk, rfl⟩ := Option.map_eq_some_iff.1 h
    have hname := name_prefix_of_named? (Option.filter_eq_some_iff.1 hk).1
    exact ⟨_, rfl, (List.prefix_cons_inj _).2 hname⟩
  · next rest hcs =>
    obtain ⟨rfl, rfl⟩ := List.cons.inj hcs
    obtain ⟨k, hk, rfl⟩ := Option.map_eq_some_iff.1 h
    exact ⟨_, rfl, name_prefix_of_named? hk⟩
  · cases h

theorem source_first (c : Char) (cs : List Char) :
    ∃ w, (first c cs).source = c :: w ∧ w <+: cs := by
  unfold first
  split
  · exact source_wildcard ‹_›
  · split
    · refine ⟨_, rfl, ?_⟩
      cases cs with
      | nil => exact List.prefix_refl _
      | cons d cs => exact List.prefix_append [d] cs
    · exact ⟨_, rfl, prefix_inBrackets cs⟩
    · exact ⟨[], rfl, List.nil_prefix⟩
    · exact ⟨[], rfl, List.nil_prefix⟩

theorem cut_cons (c : Char) (cs : List Char) :
    ∃ w rest, cs = w ++ rest ∧ (first c cs).source = c :: w ∧
      cut (c :: cs) = first c cs :: cut rest := by
  obtain ⟨w, hsource, rest, rfl⟩ := source_first c cs
  exact ⟨w, rest, rfl, hsource, cutFrom_source hsource rfl⟩

theorem first_cases (c : Char) (cs : List Char) :
    (∃ slash kind, first c cs = wildcard slash kind ∧ (c = ':' ∨ c = '/')) ∨
      c = '\\' ∧ first c cs = escape cs.head? ∨
      c = '[' ∧ first c cs = bracket ('[' :: inBrackets cs) ∨
      c = '(' ∧ first c cs = paren (opensCapture cs) ∨
      (c ≠ '\\' ∧ c ≠ '[' ∧ c ≠ '(') ∧ first c cs = char c := by
  cases hwild : wildcard? (c :: cs) with
  | some p =>
    have hfirst : first c cs = p := by
      unfold first
      rw [hwild]
    rw [hfirst]
    unfold wildcard? at hwild
    split at hwild
    · next heq =>
      obtain ⟨k, -, rfl⟩ := Option.map_eq_some_iff.1 hwild
      exact .inl ⟨true, k, rfl, .inr (List.cons.inj heq).1⟩
    · next heq =>
      obtain ⟨k, -, rfl⟩ := Option.map_eq_some_iff.1 hwild
      exact .inl ⟨false, k, rfl, .inl (List.cons.inj heq).1⟩
    · cases hwild
  | none =>
    refine .inr ?_
    unfold first
    rw [hwild]
    split
    · next heq => cases heq
    · split
      · exact .inl ⟨rfl, rfl⟩
      · exact .inr (.inl ⟨rfl, rfl⟩)
      · exact .inr (.inr (.inl ⟨rfl, rfl⟩))
      · next hbackslash hbracket hparen =>
        exact .inr (.inr (.inr ⟨⟨hbackslash, hbracket, hparen⟩, rfl⟩))

theorem flatMap_source_cutFrom (n : Nat) (cs : List Char) :
    (cutFrom n cs).flatMap source = cs.drop n := by
  induction cs generalizing n with
  | nil => cases n <;> rfl
  | cons c cs ih =>
    cases n with
    | succ n => exact ih n
    | zero =>
      obtain ⟨w, hsource, rest, rfl⟩ := source_first c cs
      rw [cutFrom, List.flatMap_cons, hsource, ih]
      simp

end Piece

end Signpost
