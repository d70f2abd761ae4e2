import Mathlib.Data.List.Basic
import Signpost.Proofs.Rule.Pieces
import Signpost.Proofs.Text

/-!
# References where they stand

A reference is replaced in the same way whatever stands around it, but for a parenthesis on either
side, which it takes along.
-/

namespace Signpost.Pages

variable {pages : Pages} {cs rest t digits : List Char} {r : Reference}

/-! ## Reading one reference -/

namespace Reference

/-- The parenthesis that a reference takes along of what stands before it. -/
def opening (before : List Char) : List Char := if before.getLast? = some '(' then ['('] else []

/-- The parenthesis that a reference takes along of what stands behind its digits. -/
def closing (rest : List Char) : List Char := if rest.head? = some ')' then [')'] else []

/-- What a reference leaves of what stands before it. -/
def leftBefore (before : List Char) : List Char :=
  if before.getLast? = some '(' then before.dropLast else before

/-- What a reference leaves of what stands behind it. -/
def leftBehind (rest : List Char) : List Char := if rest.head? = some ')' then rest.tail else rest

theorem leftBefore_append (before t : List Char) :
    leftBefore before ++ (opening before ++ t) = before ++ t := by
  unfold leftBefore opening
  split
  · next h => rw [← List.append_assoc, List.dropLast_append_getLast? _ h]
  · rfl

theorem closing_append_leftBehind (rest : List Char) : closing rest ++ leftBehind rest = rest := by
  unfold leftBehind closing
  split
  · next h =>
    obtain ⟨rest, rfl⟩ := List.head?_eq_some_iff.1 h
    rfl
  · rfl

theorem ofColon?_eq_some_iff : ofColon? cs = some r ↔
    ∃ digits rest, (digits ≠ [] ∧ digits.all Char.isDigit = true) ∧
      (∀ c ∈ rest.head?, c.isDigit = false) ∧ cs = ":page:".toList ++ digits ++ rest ∧
      r = ⟨digits, ":page:".toList ++ digits ++ closing rest⟩ := by
  constructor
  · intro h
    obtain ⟨behind, hstart, h⟩ := Option.bind_eq_some_iff.1 h
    have hcs := List.isPrefixOf?_eq_some_iff_append_eq.1 hstart
    have hsplit := List.takeWhile_append_dropWhile (p := Char.isDigit) (l := behind)
    have hall : (behind.takeWhile Char.isDigit).all Char.isDigit = true := List.all_takeWhile
    have hrest := List.head?_dropWhile_not Char.isDigit behind
    dsimp only at h
    generalize behind.takeWhile Char.isDigit = digits at h hsplit hall
    generalize behind.dropWhile Char.isDigit = rest at hsplit hrest
    subst hsplit
    split at h
    · cases h
    · next hdigits =>
      cases h
      refine ⟨digits, rest, ⟨by simpa using hdigits, hall⟩, ?_, ?_, ?_⟩
      · intro c hc
        rw [Option.mem_def.1 hc] at hrest
        exact hrest
      · rw [List.append_assoc, hcs]
      · rw [List.drop_left]
        rfl
  · rintro ⟨digits, rest, ⟨hdigits, hall⟩, hrest, rfl, rfl⟩
    exact ofColon?_digits hdigits hall hrest

theorem ofColon?_eq_none (h : ':' ∉ cs.tail) : ofColon? cs = none := by
  cases hr : ofColon? cs with
  | none => rfl
  | some r =>
    obtain ⟨digits, rest, -, -, rfl, -⟩ := ofColon?_eq_some_iff.1 hr
    simp at h

/-- A text that a reference before it does not reach into. -/
def Apart (t : List Char) : Prop := ∃ x, t = '(' :: x ∨ t = ":page:".toList ++ x

theorem Apart.head (h : Apart t) : ∀ c ∈ t.head?, c.isDigit = false ∧ c ≠ ')' := by
  obtain ⟨x, rfl | rfl⟩ := h <;> simp

theorem Apart.not_letter {c : Char} (hc : c ∈ "page".toList) : ¬ Apart (c :: t) := by
  rintro ⟨x, h | h⟩
  all_goals
    rw [(List.cons.inj h).1] at hc
    revert hc
    decide

theorem Apart.not_reached {u : List Char} (h : Apart (u ++ rest)) (hu : u ≠ []) (hcs : cs ≠ [])
    (hdigits : digits ≠ [] ∧ digits.all Char.isDigit = true) :
    ":page:".toList ++ digits ≠ cs ++ u := by
  intro heq
  have htext : ":page:".toList ++ digits = ':' :: 'p' :: 'a' :: 'g' :: 'e' :: ':' :: digits := rfl
  rw [htext] at heq
  rcases cs with _ | ⟨c₁, _ | ⟨c₂, _ | ⟨c₃, _ | ⟨c₄, _ | ⟨c₅, _ | ⟨c₆, cs⟩⟩⟩⟩⟩⟩
  · exact hcs rfl
  · simp only [List.cons_append, List.nil_append, List.cons.injEq] at heq
    rw [← heq.2] at h
    exact not_letter (by decide) h
  · simp only [List.cons_append, List.nil_append, List.cons.injEq] at heq
    rw [← heq.2.2] at h
    exact not_letter (by decide) h
  · simp only [List.cons_append, List.nil_append, List.cons.injEq] at heq
    rw [← heq.2.2.2] at h
    exact not_letter (by decide) h
  · simp only [List.cons_append, List.nil_append, List.cons.injEq] at heq
    rw [← heq.2.2.2.2] at h
    exact not_letter (by decide) h
  -- The last colon of the reference has a digit behind it.
  · simp only [List.cons_append, List.nil_append, List.cons.injEq] at heq
    obtain ⟨d, digits, rfl⟩ := List.exists_cons_of_ne_nil hdigits.1
    rw [← heq.2.2.2.2.2] at h
    obtain ⟨x, h | h⟩ := h
    · cases h
    · obtain rfl : d = 'p' := (List.cons.inj (List.cons.inj h).2).1
      cases hdigits.2
  · simp only [List.cons_append, List.cons.injEq] at heq
    obtain ⟨d, u, rfl⟩ := List.exists_cons_of_ne_nil hu
    have hd : d.isDigit = true := List.all_eq_true.1 hdigits.2 d (by rw [heq.2.2.2.2.2.2]; simp)
    rw [(h.head d rfl).1] at hd
    cases hd

theorem Apart.closing_append (h : Apart t) (rest : List Char) :
    closing (rest ++ t) = closing rest := by
  cases rest with
  | nil => exact if_neg fun hhead => (h.head _ hhead).2 rfl
  | cons c rest => rfl

theorem ofColon?_append (h : Apart t) (hcs : cs ≠ []) : ofColon? (cs ++ t) = ofColon? cs := by
  refine Option.ext fun r => ?_
  rw [ofColon?_eq_some_iff, ofColon?_eq_some_iff]
  constructor
  · rintro ⟨digits, rest, hdigits, hrest, htext, rfl⟩
    have hsplit : ∃ u, cs = ":page:".toList ++ digits ++ u ∧ rest = u ++ t := by
      rcases List.append_eq_append_iff.1 htext with ⟨u, hfront, rfl⟩ | ⟨u, hcs, hrest⟩
      · cases u with
        | nil => exact ⟨[], by rw [hfront, List.append_nil, List.append_nil], rfl⟩
        | cons c u => exact absurd hfront (h.not_reached (List.cons_ne_nil c u) hcs hdigits)
      · exact ⟨u, hcs, hrest⟩
    obtain ⟨u, rfl, rfl⟩ := hsplit
    refine ⟨digits, u, hdigits, ?_, rfl, by rw [h.closing_append]⟩
    cases u with
    | nil => exact fun c hc => nomatch hc
    | cons d u => exact hrest
  · rintro ⟨digits, rest, hdigits, hrest, rfl, rfl⟩
    refine ⟨digits, rest ++ t, hdigits, ?_, by simp, by rw [h.closing_append]⟩
    cases rest with
    | nil => exact fun c hc => (h.head c hc).1
    | cons d rest => exact hrest

theorem atFront?_append {c : Char} (h : Apart t)
    (hopen : (c :: cs).getLast? = some '(' → ∃ x, t = '(' :: x) :
    atFront? (c :: (cs ++ t)) = atFront? (c :: cs) := by
  by_cases hc : c = '('
  · subst hc
    rw [atFront?, atFront?]
    cases cs with
    | nil =>
      obtain ⟨x, rfl⟩ := hopen rfl
      rw [List.nil_append, ofColon?_other (by decide)]
      rfl
    | cons d cs => rw [ofColon?_append h (List.cons_ne_nil d cs)]
  · have hfront : ∀ x, atFront? (c :: x) = ofColon? (c :: x) := fun x =>
      atFront?.eq_2 _ fun y hy => hc (List.cons.inj hy).1
    rw [hfront, hfront, ← List.cons_append, ofColon?_append h (List.cons_ne_nil c cs)]

theorem prefix_text (h : atFront? cs = some r) : r.text <+: cs := by
  have hcolon : ∀ {cs : List Char} {r : Reference}, ofColon? cs = some r → r.text <+: cs := by
    intro cs r h
    obtain ⟨digits, rest, -, -, rfl, rfl⟩ := ofColon?_eq_some_iff.1 h
    refine (List.prefix_append_right_inj _).2 ?_
    unfold closing
    split
    · next hclose =>
      obtain ⟨rest, rfl⟩ := List.head?_eq_some_iff.1 hclose
      exact List.prefix_append [')'] rest
    · exact List.nil_prefix
  unfold atFront? at h
  split at h
  · obtain ⟨s, hs, rfl⟩ := Option.map_eq_some_iff.1 h
    exact (List.prefix_cons_inj _).2 (hcolon hs)
  · exact hcolon h

end Reference

/-! ## Resolving around a reference -/

open Reference

theorem resolveFrom_colon {before : List Char} (hbefore : ':' ∉ before) (hcs : ':' ∉ cs.tail) :
    resolveFrom pages 0 (before ++ cs) = before ++ resolveFrom pages 0 cs := by
  induction before with
  | nil => rfl
  | cons c before ih =>
    obtain ⟨hc, hbefore⟩ := not_or.1 (mt List.mem_cons.2 hbefore)
    have hbehind : ofColon? (before ++ cs) = none := by
      cases before with
      | nil => exact ofColon?_eq_none hcs
      | cons d before => exact ofColon?_other (fun hd => hbefore (hd ▸ List.mem_cons_self)) _
    have hnone : atFront? (c :: (before ++ cs)) = none := by
      by_cases hparen : c = '('
      · rw [hparen, atFront?, hbehind]
        rfl
      · exact atFront?_other (fun hcolon => hc hcolon.symm) hparen _
    rw [List.cons_append, resolveFrom_none hnone, ih hbefore]
    rfl

theorem resolve_of_notMem (h : ':' ∉ cs) : pages.resolve cs = cs := by
  have hnil : ':' ∉ ([] : List Char).tail := List.not_mem_nil
  have hcopied : resolveFrom pages 0 (cs ++ []) = cs ++ [] := resolveFrom_colon h hnil
  rwa [List.append_nil] at hcopied

theorem resolve_of_single_colon {before : List Char} (hbefore : ':' ∉ before) (hcs : ':' ∉ cs) :
    pages.resolve (before ++ ':' :: cs) = before ++ ':' :: cs := by
  -- A reference has two colons.
  have htail : ':' ∉ (':' :: cs).tail := hcs
  have hnone : atFront? (':' :: cs) = none := ofColon?_eq_none htail
  have hcopied : resolveFrom pages 0 cs = cs := resolve_of_notMem hcs
  rw [resolve, resolveFrom_colon hbefore htail, resolveFrom_none hnone, hcopied]

theorem resolveFrom_append (h : Apart t) {n : Nat} (hn : n ≤ cs.length)
    (hopen : cs.getLast? = some '(' → ∃ x, t = '(' :: x) :
    resolveFrom pages n (cs ++ t) = resolveFrom pages n cs ++ resolveFrom pages 0 t := by
  induction cs generalizing n with
  | nil =>
    obtain rfl := Nat.le_zero.1 hn
    rw [List.nil_append, resolveFrom, List.nil_append]
  | cons c cs ih =>
    have hopen' : cs.getLast? = some '(' → ∃ x, t = '(' :: x := fun hlast =>
      hopen (by rw [List.getLast?_cons, hlast]; rfl)
    cases n with
    | succ n => exact ih (Nat.le_of_succ_le_succ hn) hopen'
    | zero =>
      rw [List.cons_append, resolveFrom, resolveFrom, atFront?_append h hopen]
      cases hfront : atFront? (c :: cs) with
      | none =>
        dsimp only
        rw [ih (Nat.zero_le _) hopen', List.cons_append]
      | some r =>
        have hlength := (prefix_text hfront).length_le
        rw [List.length_cons] at hlength
        dsimp only
        rw [ih (by omega) hopen', List.append_assoc]

theorem resolve_closing (rest : List Char) :
    pages.resolve rest = closing rest ++ pages.resolve (leftBehind rest) := by
  conv_lhs => rw [← closing_append_leftBehind rest]
  refine resolveFrom_letters ?_ _
  unfold closing
  split
  · simp
  · simp

/-- A path written out in parentheses. -/
def written (uri : List Char) : List Char := '(' :: uri ++ [')']

variable {uri before : List Char}

theorem resolveFrom_written (huri : ∀ c ∈ uri, c ≠ ':' ∧ c ≠ '(') (rest : List Char) :
    resolveFrom pages 0 (written uri ++ rest) = written uri ++ resolveFrom pages 0 rest := by
  have hletters : ∀ c ∈ uri ++ [')'], c ≠ ':' ∧ c ≠ '(' := by
    rw [List.forall_mem_append]
    exact ⟨huri, by simp⟩
  have hnone : atFront? ('(' :: (uri ++ [')'] ++ rest)) = none := by
    rw [atFront?, Option.map_eq_none_iff]
    cases uri with
    | nil => exact ofColon?_other (by decide) _
    | cons c uri => exact ofColon?_other (huri c List.mem_cons_self).1 _
  rw [written, List.cons_append, List.cons_append, resolveFrom_none hnone,
    resolveFrom_letters hletters]
  rfl

theorem resolveFrom_reference {id : PageId} {path : String}
    (hid : PageId.ofDigits? digits = some id) (hpage : pages.get? id = some path)
    (hrest : ∀ c ∈ rest.head?, c.isDigit = false) :
    resolveFrom pages 0 (opening before ++ (":page:".toList ++ digits ++ rest)) =
      written (Text.trim Text.isSlash path.toList) ++ resolveFrom pages 0 (leftBehind rest) := by
  obtain ⟨hdigits, hall⟩ := PageId.digits_of_ofDigits? hid
  have hcolon := ofColon?_digits hdigits hall hrest
  have hresolve : ∀ text, Reference.resolve pages ⟨digits, text⟩ =
      written (Text.trim Text.isSlash path.toList) := by
    intro text
    simp only [Reference.resolve, hid, Option.bind_some, hpage]
    rfl
  have hfront : atFront? (opening before ++ (":page:".toList ++ digits ++ rest)) = some
      ⟨digits, opening before ++ (":page:".toList ++ digits ++ closing rest)⟩ := by
    unfold opening
    split
    · rw [List.singleton_append, atFront?, hcolon]
      rfl
    · exact hcolon
  have hrest : opening before ++ (":page:".toList ++ digits ++ rest) =
      opening before ++ (":page:".toList ++ digits ++ closing rest) ++ leftBehind rest := by
    simp only [List.append_assoc, closing_append_leftBehind]
  rw [hrest] at hfront ⊢
  obtain ⟨c, w, hw⟩ := List.exists_cons_of_ne_nil
    (l := opening before ++ (":page:".toList ++ digits ++ closing rest)) (by simp)
  rw [hw] at hfront ⊢
  rw [← hresolve (c :: w)]
  exact resolveFrom_front rfl hfront

/-- A reference to a known page stands for its path in parentheses, without those beside it. -/
theorem resolve_reference {id : PageId} {path : String}
    (hid : PageId.ofDigits? digits = some id) (hpage : pages.get? id = some path)
    (hrest : ∀ c ∈ rest.head?, c.isDigit = false) :
    pages.resolve (before ++ (":page:".toList ++ digits ++ rest)) =
      pages.resolve (leftBefore before) ++ (written (Text.trim Text.isSlash path.toList) ++
        pages.resolve (leftBehind rest)) := by
  have hapart : Apart (opening before ++ (":page:".toList ++ digits ++ rest)) ∧
      ((leftBefore before).getLast? = some '(' →
        ∃ x, opening before ++ (":page:".toList ++ digits ++ rest) = '(' :: x) := by
    unfold opening leftBefore
    split
    · exact ⟨⟨_, .inl rfl⟩, fun _ => ⟨_, rfl⟩⟩
    · next hlast => exact ⟨⟨_, .inr (List.append_assoc ..)⟩, fun h => absurd h hlast⟩
  rw [resolve, ← leftBefore_append, resolveFrom_append hapart.1 (Nat.zero_le _) hapart.2,
    resolveFrom_reference hid hpage hrest]
  rfl

theorem trimEnd_reference {id : PageId} (hid : PageId.ofDigits? digits = some id)
    (before rest : List Char) :
    Text.trimEnd Text.isSlash (before ++ (":page:".toList ++ digits ++ rest)) =
      before ++ (":page:".toList ++ digits ++ Text.trimEnd Text.isSlash rest) := by
  -- Slashes at the end of the text are behind its last reference.
  obtain ⟨hdigits, hall⟩ := PageId.digits_of_ofDigits? hid
  have hd := List.getLast?_eq_some_getLast hdigits
  have hslash : Text.isSlash (digits.getLast hdigits) = false := by
    have hdigit := List.all_eq_true.1 hall _ (List.getLast_mem hdigits)
    rw [Text.isSlash, beq_eq_false_iff_ne]
    intro heq
    rw [heq] at hdigit
    cases hdigit
  have hlast : (before ++ (":page:".toList ++ digits)).getLast? =
      some (digits.getLast hdigits) := by
    rw [← List.append_assoc, List.getLast?_append, hd]
    rfl
  rw [← List.append_assoc, Text.trimEnd_append hlast hslash, List.append_assoc]

theorem resolve_written (huri : ∀ c ∈ uri, c ≠ ':' ∧ c ≠ '(') :
    pages.resolve (before ++ (written uri ++ rest)) =
      pages.resolve (leftBefore before) ++ (opening before ++ (written uri ++
        (closing rest ++ pages.resolve (leftBehind rest)))) := by
  have hopening : ∀ t, resolveFrom pages 0 (opening before ++ (written uri ++ t)) =
      opening before ++ resolveFrom pages 0 (written uri ++ t) := by
    intro t
    unfold opening
    split
    · refine resolveFrom_none ?_
      rw [atFront?, Option.map_eq_none_iff]
      exact ofColon?_other (by decide) _
    · rfl
  have hparen : ∃ x, opening before ++ (written uri ++ rest) = '(' :: x := by
    unfold opening
    split
    · exact ⟨_, rfl⟩
    · exact ⟨_, rfl⟩
  have hapart : Apart (opening before ++ (written uri ++ rest)) := by
    obtain ⟨x, hx⟩ := hparen
    exact ⟨x, .inl hx⟩
  rw [resolve, ← leftBefore_append, resolveFrom_append hapart (Nat.zero_le _) fun _ => hparen,
    hopening, resolveFrom_written huri, ← resolve, ← resolve, resolve_closing rest]

end Signpost.Pages
