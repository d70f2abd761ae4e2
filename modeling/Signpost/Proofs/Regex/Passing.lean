import Mathlib.Data.List.TakeDrop
import Mathlib.Data.List.TakeWhile
import Signpost.Proofs.Regex.Openings

/-!
# What the readers pass over

Behind its first character a lexeme has only characters that neither open nor close a bracket and
escape nothing, unless it is a class or the name of a group.
-/

namespace Signpost.Regex

variable {α β : Type} {c : Char} {cs rest t : List Char}

def isQuiet (c : Char) : Bool := !"\\[](".toList.contains c

/-- What the reader passes over is quiet. -/
def Passes (cs rest : List Char) : Prop := ∃ t, cs = t ++ rest ∧ ∀ c ∈ t, isQuiet c = true

namespace Passes

theorem refl (cs : List Char) : Passes cs cs := ⟨[], rfl, by simp⟩

theorem trans {mid : List Char} (h : Passes cs mid) (h' : Passes mid rest) : Passes cs rest := by
  obtain ⟨t, rfl, ht⟩ := h
  obtain ⟨u, rfl, hu⟩ := h'
  exact ⟨t ++ u, (List.append_assoc ..).symm, List.forall_mem_append.2 ⟨ht, hu⟩⟩

theorem cons (hc : isQuiet c = true) (h : Passes cs rest) : Passes (c :: cs) rest := by
  obtain ⟨t, rfl, ht⟩ := h
  exact ⟨c :: t, rfl, List.forall_mem_cons.2 ⟨hc, ht⟩⟩

end Passes

theorem not_contains_of {p : Char → Bool} {loud : List Char}
    (hp : loud.all (fun d => !p d) = true) (h : p c = true) : (!loud.contains c) = true := by
  rw [Bool.not_eq_true', ← Bool.not_eq_true, List.contains_iff_mem]
  intro hmem
  have hnot := List.all_eq_true.1 hp c hmem
  rw [h] at hnot
  cases hnot

theorem isQuiet_of {p : Char → Bool} (hp : "\\[](".toList.all (fun d => !p d) = true)
    (h : p c = true) : isQuiet c = true :=
  not_contains_of hp h

theorem passes_dropWhile {p : Char → Bool} (hp : "\\[](".toList.all (fun d => !p d) = true)
    (cs : List Char) : Passes cs (cs.dropWhile p) :=
  ⟨cs.takeWhile p, List.takeWhile_append_dropWhile.symm, fun _ hc =>
    isQuiet_of hp (List.mem_takeWhile_imp hc)⟩

theorem passes_span {p : Char → Bool} (hp : "\\[](".toList.all (fun d => !p d) = true)
    {front : List Char} (h : cs.span p = (front, rest)) : Passes cs rest := by
  rw [List.span_eq_takeWhile_dropWhile] at h
  obtain ⟨-, rfl⟩ := Prod.mk.inj h
  exact passes_dropWhile hp cs

/-! ## Repetitions -/

theorem passes_count {n : Option Nat} (h : readCount cs = .ok (n, rest)) : Passes cs rest := by
  have hblank : ∀ cs : List Char, Passes cs (cs.dropWhile Unicode.isBlank) :=
    passes_dropWhile (by decide)
  have hdigits : ∀ cs : List Char, Passes cs (cs.dropWhile Char.isDigit) :=
    passes_dropWhile (by decide)
  have hall := ((hblank cs).trans (hdigits _)).trans (hblank _)
  unfold readCount at h
  simp only [List.span_eq_takeWhile_dropWhile] at h
  split at h
  · cases h
    exact hall
  · split at h <;> cases h
    exact hall

theorem passes_greed {least : Nat} {most : Option Nat} {l : Lexeme}
    (h : readGreed least most cs = (l, rest)) : Passes cs rest ∧ l.opens = false := by
  unfold readGreed at h
  split at h <;> cases h
  · exact ⟨.cons (by decide) (.refl _), rfl⟩
  · exact ⟨.refl _, rfl⟩

theorem passes_braces {l : Lexeme} (h : readBraces cs = .ok (l, rest)) :
    Passes cs rest ∧ l.opens = false := by
  unfold readBraces at h
  obtain ⟨⟨least, more⟩, hcount, h⟩ := bind_eq_ok.1 h
  refine .imp_left (passes_count hcount).trans ?_
  simp only at h
  split at h
  · exact (passes_greed (Except.ok.inj h)).imp_left (.cons (by decide))
  · exact (passes_greed (Except.ok.inj h)).imp_left fun hp =>
      .cons (by decide) (.cons (by decide) hp)
  · obtain ⟨⟨most, last⟩, hcount, h⟩ := bind_eq_ok.1 h
    refine .imp_left (fun hp => .cons (by decide) ((passes_count hcount).trans hp)) ?_
    split at h
    · next heq =>
      obtain ⟨rfl, rfl⟩ := Prod.mk.inj heq
      split at h
      · exact (passes_greed (Except.ok.inj h)).imp_left (.cons (by decide))
      · cases h
    · cases h
  · cases h

/-! ## Escapes -/

theorem isHexDigit_quiet (h : Numeral.isHexDigit c = true) : isQuiet c = true :=
  isQuiet_of (by decide) h

theorem passes_code {width : Nat} {d : Char} (h : readCode width cs = .ok (d, rest)) :
    Passes cs rest := by
  unfold readCode at h
  split at h
  · next cs =>
    refine .cons (by decide) ?_
    split at h
    · cases h
    · next digits rest' hne hspan =>
      refine (passes_span (by decide) hspan).trans ?_
      split at h <;> cases h
      exact .cons (by decide) (.refl _)
    · cases h
  · simp only at h
    split at h
    · next hdigits =>
      split at h <;> cases h
      exact ⟨cs.take width, (List.take_append_drop width cs).symm, fun d hd =>
        isHexDigit_quiet (List.all_eq_true.1 hdigits.2 d hd)⟩
    · cases h

theorem passes_boundary {e : Escape} (h : readBoundary cs = .ok (e, rest)) : Passes cs rest := by
  unfold readBoundary at h
  split at h
  · next c cs =>
    split at h
    · split at h
      · next name rest' hspan =>
        have hrest : rest = rest' := by split at h <;> cases h <;> rfl
        subst hrest
        exact .cons (by decide) ((passes_span (by decide) hspan).trans
          (.cons (by decide) (.refl _)))
      · cases h
    · cases h
      exact .refl _
  · cases h
    exact .refl _

theorem passes_escape {e : Escape} (h : readEscape (c :: cs) = .ok (e, rest)) :
    Passes cs rest := by
  have hcode : ∀ {width},
      ((readCode width cs).map fun r => (Escape.char r.1, r.2)) = .ok (e, rest) →
        Passes cs rest := by
    intro width h
    obtain ⟨⟨d, rest'⟩, hread, heq⟩ := except_map_eq_ok.1 h
    obtain ⟨-, rfl⟩ := Prod.mk.inj heq
    exact passes_code hread
  unfold readEscape at h
  simp only at h
  split at h
  case h_13 => exact hcode h
  case h_14 => exact hcode h
  case h_15 => exact hcode h
  case h_18 => exact passes_boundary h
  case h_22 =>
    split at h
    · cases h
      exact .refl _
    · split at h <;> cases h
  all_goals
    cases h
    exact .refl _

/-! ## Openings of groups -/

theorem passes_flags {on : Bool} {found : List (Flag × Bool)} {l : Lexeme}
    (h : readFlags on found cs = .ok (l, rest)) : Passes cs rest ∧ l.opens = false := by
  induction on, found, cs using readFlags.induct with
  | case1 => cases h
  | case2 on found cs =>
    cases h
    exact ⟨.cons (by decide) (.refl _), rfl⟩
  | case3 on found cs hfound =>
    rw [readFlags, if_pos hfound] at h
    cases h
  | case4 on found cs hfound =>
    rw [readFlags, if_neg hfound] at h
    cases h
    exact ⟨.cons (by decide) (.refl _), rfl⟩
  | case5 on found c cs hon ih =>
    rw [readFlags, if_pos hon] at h
    exact (ih h).imp_left (.cons (by decide))
  | case6 on found c cs hon =>
    rw [readFlags, if_neg hon] at h
    cases h
  | case7 on found c cs hcolon hclose hhyphen f hletter hfound =>
    rw [readFlags.eq_5 _ _ _ _ hcolon hclose hhyphen, hletter] at h
    simp only [if_pos hfound] at h
    cases h
  | case8 on found c cs hcolon hclose hhyphen f hletter hfound ih =>
    rw [readFlags.eq_5 _ _ _ _ hcolon hclose hhyphen, hletter] at h
    simp only [if_neg hfound] at h
    have hquiet : isQuiet c = true :=
      isQuiet_of (p := fun c => (Flag.ofLetter? c).isSome) (by decide) (by rw [hletter]; rfl)
    exact (ih h).imp_left (.cons hquiet)
  | case9 on found c cs hcolon hclose hhyphen hletter =>
    rw [readFlags.eq_5 _ _ _ _ hcolon hclose hhyphen, hletter] at h
    cases h

theorem passes_name {l : Lexeme} (h : readName cs = .ok (l, rest)) :
    ∃ name, l = .openCapture (some name) ∧ ('[' ∉ name → ∃ t, cs = t ++ rest ∧
      ∀ c ∈ t, c ≠ '\\' ∧ c ≠ '[' ∧ c ≠ '(') := by
  -- A name has neither parenthesis nor backslash, but it may have brackets.
  unfold readName at h
  split at h
  · next c name d rest' hspan =>
    split at h
    · next hname =>
      cases h
      rw [List.span_eq_takeWhile_dropWhile] at hspan
      obtain ⟨htake, hdrop⟩ := Prod.mk.inj hspan
      have hcut : cs = c :: name ++ [d] ++ rest := by
        rw [← List.takeWhile_append_dropWhile (p := (· != '>')) (l := cs), htake, hdrop]
        simp
      have hd : d = '>' := by
        have hnot := List.head?_dropWhile_not (· != '>') cs
        rw [hdrop] at hnot
        simpa using hnot
      refine ⟨c :: name, rfl, fun hbracket => ⟨_, hcut, ?_⟩⟩
      have hletters : ∀ x ∈ c :: name, x ≠ '\\' ∧ x ≠ '(' := by
        rw [Bool.and_eq_true] at hname
        have hloud : ∀ first x, isNameChar first x = true → x ≠ '\\' ∧ x ≠ '(' := by
          intro first x hx
          constructor <;> rintro rfl <;> revert hx <;> cases first <;> decide
        exact List.forall_mem_cons.2 ⟨hloud _ _ hname.1, fun x hx =>
          hloud _ _ (List.all_eq_true.1 hname.2 x hx)⟩
      refine List.forall_mem_append.2 ⟨fun x hx => ?_, List.forall_mem_singleton.2 (by simp [hd])⟩
      obtain ⟨hbackslash, hparen⟩ := hletters x hx
      exact ⟨hbackslash, fun heq => hbracket (heq ▸ hx), hparen⟩
    · cases h
  · cases h

end Signpost.Regex
