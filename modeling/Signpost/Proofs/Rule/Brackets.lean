import Signpost.Proofs.Regex.Lexing
import Signpost.Proofs.Regex.Passing
import Signpost.Rule.Piece

/-!
# Where a class ends

The scanner of a rule takes the first closing bracket for the end of a class, unless it stands at
its start or is escaped. For a class without a bracket inside it the reader of classes does so too.
-/

namespace Signpost.Piece

open Regex

variable {c : Char} {cs rest t : List Char}

theorem untilClosing_cons (h : c ≠ '\\') (cs : List Char) :
    untilClosing (c :: cs) = if c = ']' then [']'] else c :: untilClosing cs :=
  untilClosing.eq_4 c cs (fun hc _ => h hc) (fun _ _ hc _ => h hc)

theorem untilClosing_append (h : ∀ d ∈ t, d ≠ '\\' ∧ d ≠ ']') (rest : List Char) :
    untilClosing (t ++ rest) = t ++ untilClosing rest := by
  induction t with
  | nil => rfl
  | cons d t ih =>
    obtain ⟨⟨hbackslash, hclose⟩, ht⟩ := List.forall_mem_cons.1 h
    rw [List.cons_append, untilClosing_cons hbackslash, if_neg hclose, ih ht]
    rfl

theorem quiet_inside (h : ∀ d ∈ t, isQuiet d = true) : ∀ d ∈ t, d ≠ '\\' ∧ d ≠ ']' := by
  intro d hd
  have hquiet := h d hd
  constructor <;> rintro rfl <;> cases hquiet

/-- From a character on, the scanner gets to the same place inside brackets. -/
def Crosses (c : Char) (cs rest : List Char) : Prop :=
  ∃ t, cs = t ++ rest ∧ untilClosing (c :: cs) = c :: (t ++ untilClosing rest)

theorem crosses_atom {a : Char ⊕ CharSet} (hc : c ≠ ']')
    (h : readClassAtom (c :: cs) = .ok (a, rest)) : Crosses c cs rest := by
  unfold readClassAtom at h
  split at h
  · cases h
  · next cs' heq =>
    obtain ⟨rfl, rfl⟩ := List.cons.inj heq
    obtain ⟨⟨e, rest'⟩, hescape, h⟩ := bind_eq_ok.1 h
    have hrest : rest' = rest := by cases e <;> cases h <;> rfl
    subst hrest
    cases cs with
    | nil => cases hescape
    | cons d cs =>
      obtain ⟨t, rfl, ht⟩ := passes_escape hescape
      refine ⟨d :: t, rfl, ?_⟩
      rw [untilClosing, untilClosing_append (quiet_inside ht)]
      rfl
  · next c' cs' hbackslash heq =>
    obtain ⟨rfl, rfl⟩ := List.cons.inj heq
    cases h
    refine ⟨[], rfl, ?_⟩
    rw [untilClosing_cons hbackslash, if_neg hc]
    rfl

theorem crosses_range {first : Char ⊕ CharSet} {s : CharSet}
    (h : readRange first cs = .ok (s, rest)) :
    ∃ t, cs = t ++ rest ∧ untilClosing cs = t ++ untilClosing rest := by
  unfold readRange at h
  split at h
  · cases h
    exact ⟨[], rfl, rfl⟩
  · cases h
    exact ⟨[], rfl, rfl⟩
  · next more hclose hhyphen =>
    have hrest : ∃ a, readClassAtom more = .ok (a, rest) := by
      obtain ⟨⟨a, rest'⟩, hatom, h⟩ := bind_eq_ok.1 h
      have hrest : rest' = rest := by
        cases first with
        | inr s => cases h
        | inl b =>
          cases a with
          | inr s => cases h
          | inl d =>
            simp only at h
            split at h <;> cases h
            rfl
      exact ⟨a, hrest ▸ hatom⟩
    obtain ⟨a, hatom⟩ := hrest
    cases more with
    | nil => cases hatom
    | cons d more =>
      have hd : d ≠ ']' := by
        rintro rfl
        exact hclose _ rfl
      obtain ⟨t, rfl, ht⟩ := crosses_atom hd hatom
      refine ⟨'-' :: d :: t, rfl, ?_⟩
      rw [untilClosing_cons (by decide), if_neg (by decide), ht]
      rfl
  · cases h
    exact ⟨[], rfl, rfl⟩

theorem crosses_item {s : CharSet} (hc : c ≠ ']')
    (h : readClassItem (c :: cs) = .ok (s, rest)) : Crosses c cs rest := by
  obtain ⟨⟨first, mid⟩, hatom, hrange⟩ := bind_eq_ok.1 h
  obtain ⟨t, rfl, ht⟩ := crosses_atom hc hatom
  obtain ⟨u, rfl, hu⟩ := crosses_range hrange
  exact ⟨t ++ u, (List.append_assoc ..).symm, by rw [ht, hu, List.append_assoc]⟩

theorem readClass_untilClosing {k : OpenClass} {n : Nat} {s : NestedSet}
    (h : readClass [] k n cs = .ok (s, rest)) (hflat : '[' ∉ untilClosing (cs.drop n)) :
    cs.drop n = untilClosing (cs.drop n) ++ rest := by
  have hdouble : ∀ c {cs : List Char}, c ≠ '\\' → c ≠ ']' → '[' ∉ untilClosing (c :: c :: cs) →
      ('[' ∉ untilClosing cs → cs = untilClosing cs ++ rest) →
        c :: c :: cs = untilClosing (c :: c :: cs) ++ rest := by
    intro c cs hbackslash hclose hflat hnext
    rw [untilClosing_cons hbackslash, if_neg hclose, untilClosing_cons hbackslash,
      if_neg hclose] at hflat ⊢
    rw [List.cons_append, List.cons_append, ← hnext fun hmem =>
      hflat (List.mem_cons_of_mem _ (List.mem_cons_of_mem _ hmem))]
  generalize houter : ([] : List OpenClass) = outer at h
  induction outer, k, n, cs using readClass.induct with
  | case1 outer k n =>
    rw [readClass] at h
    cases h
  | case2 outer k n c cs ih => exact ih hflat houter h
  | case3 outer k cs s named hnamed ih =>
    rw [List.drop_zero, untilClosing_cons (by decide), if_neg (by decide)] at hflat
    exact absurd List.mem_cons_self hflat
  | case4 outer k cs hnamed inner items hitems ih =>
    rw [List.drop_zero, untilClosing_cons (by decide), if_neg (by decide)] at hflat
    exact absurd List.mem_cons_self hflat
  | case5 k cs =>
    cases h
    rw [List.drop_zero, untilClosing_cons (by decide), if_pos rfl]
    rfl
  | case6 k cs o outer ih => cases houter
  | case7 outer k cs _ _ ih =>
    exact hdouble '&' (by decide) (by decide) hflat fun hmem => ih hmem houter h
  | case8 outer k cs _ _ ih =>
    exact hdouble '-' (by decide) (by decide) hflat fun hmem => ih hmem houter h
  | case9 outer k cs _ _ ih =>
    exact hdouble '~' (by decide) (by decide) hflat fun hmem => ih hmem houter h
  | case10 outer k c cs hopen hclose hinter hdiff hsymm ih =>
    rw [readClass_item hopen hclose hinter hdiff hsymm] at h
    obtain ⟨⟨s, item⟩, hitem, h⟩ := bind_eq_ok.1 h
    obtain ⟨t, rfl, ht⟩ := crosses_item hclose hitem
    have hdrop : (t ++ item).drop ((t ++ item).length - item.length) = item := by simp
    rw [List.drop_zero, ht] at hflat ⊢
    have hrest := ih s item
    rw [hdrop] at hrest
    rw [List.cons_append, List.append_assoc, ← hrest _ houter h]
    exact fun hmem => hflat (List.mem_cons_of_mem _ (List.mem_append_right _ hmem))

theorem startClass_inBrackets (cs : List Char) :
    ∃ t, cs = t ++ (startClass cs).2 ∧ inBrackets cs = t ++ untilClosing (startClass cs).2 := by
  have hitems : ∀ (k : OpenClass) (cs : List Char), (∀ x, cs ≠ ']' :: x) →
      ∃ t, cs = t ++ (startItems k cs).2 ∧
        untilClosing cs = t ++ untilClosing (startItems k cs).2 := by
    intro k cs hclose
    have hstart : (startItems k cs).2 = cs.dropWhile (· == '-') := by
      rw [startItems.eq_2 _ _ fun x hx => hclose x hx]
    have hhyphens : ∀ d ∈ cs.takeWhile (· == '-'), d ≠ '\\' ∧ d ≠ ']' := by
      intro d hd
      have hd := List.mem_takeWhile_imp hd
      rw [beq_iff_eq] at hd
      subst hd
      decide
    rw [hstart]
    refine ⟨cs.takeWhile (· == '-'), List.takeWhile_append_dropWhile.symm, ?_⟩
    rw [← untilClosing_append hhyphens, List.takeWhile_append_dropWhile]
  unfold inBrackets
  split
  · exact ⟨['^', ']'], rfl, rfl⟩
  · next cs hne =>
    obtain ⟨t, ht, hclosing⟩ := hitems ⟨true, none, .empty, []⟩ cs fun x hx => hne x (by rw [hx])
    have hstart : (startClass ('^' :: cs)).2 = (startItems ⟨true, none, .empty, []⟩ cs).2 := rfl
    rw [hstart]
    exact ⟨'^' :: t, congrArg _ ht, congrArg _ hclosing⟩
  · exact ⟨[']'], rfl, rfl⟩
  · next inBrackets_caret hcaret' hclose =>
    have hpass : passCaret cs = (false, cs) := passCaret.eq_2 _ fun x hx => hcaret' x hx
    have hstart : (startClass cs).2 = (startItems ⟨false, none, .empty, []⟩ cs).2 := by
      rw [startClass, hpass]
    rw [hstart]
    exact hitems _ cs fun x hx => hclose x hx

/-! ## Classes that are closed -/

theorem untilClosing_closed (cs : List Char) :
    (∀ t, untilClosing (untilClosing cs ++ t) = untilClosing cs) ∨
      untilClosing cs = cs ∧ ∀ t, cs <+: untilClosing (cs ++ t) := by
  fun_induction untilClosing cs with
  | case1 => exact .inr ⟨rfl, fun t => List.nil_prefix⟩
  | case2 =>
    refine .inr ⟨rfl, fun t => ?_⟩
    cases t with
    | nil => exact List.prefix_refl _
    | cons d t => exact (List.prefix_cons_inj _).2 List.nil_prefix
  | case3 c cs ih =>
    refine ih.imp (fun ih t => ?_) fun ⟨hall, ih⟩ => ⟨by rw [hall], fun t => ?_⟩
    · rw [List.cons_append, List.cons_append, untilClosing, ih]
    · exact (List.prefix_cons_inj _).2 ((List.prefix_cons_inj _).2 (ih t))
  | case4 cs => exact .inl fun t => rfl
  | case5 c cs hlone hescape hclose ih =>
    have hbackslash : c ≠ '\\' := by
      rintro rfl
      cases cs with
      | nil => exact hlone rfl rfl
      | cons d cs => exact hescape d cs rfl rfl
    refine ih.imp (fun ih t => ?_) fun ⟨hall, ih⟩ => ⟨by rw [hall], fun t => ?_⟩
    · rw [List.cons_append, untilClosing_cons hbackslash, if_neg hclose, ih]
    · rw [List.cons_append, untilClosing_cons hbackslash, if_neg hclose]
      exact (List.prefix_cons_inj _).2 (ih t)

theorem untilClosing_head (c : Char) (cs : List Char) :
    ∃ u, untilClosing (c :: cs) = c :: u := by
  by_cases hc : c = '\\'
  · subst hc
    cases cs with
    | nil => exact ⟨_, rfl⟩
    | cons d cs => exact ⟨_, rfl⟩
  · rw [untilClosing_cons hc]
    split
    · next hclose => exact ⟨[], by rw [hclose]⟩
    · exact ⟨_, rfl⟩

/-- A class that is closed ends where it does whatever comes behind it, and one that is not takes
everything. -/
def ClosesOrTakesAll (cs : List Char) : Prop :=
  (∀ t, inBrackets (inBrackets cs ++ t) = inBrackets cs) ∨
    inBrackets cs = cs ∧ ∀ t, cs <+: inBrackets (cs ++ t)

theorem closesOrTakesAll_append {s cs : List Char}
    (hwhole : inBrackets (s ++ cs) = s ++ untilClosing cs)
    (hmore : ∀ t, inBrackets (s ++ (cs ++ t)) = s ++ untilClosing (cs ++ t))
    (hclosing : ∀ t, inBrackets (s ++ (untilClosing cs ++ t)) =
      s ++ untilClosing (untilClosing cs ++ t)) : ClosesOrTakesAll (s ++ cs) := by
  rw [ClosesOrTakesAll, hwhole]
  refine (untilClosing_closed cs).imp (fun h t => ?_) fun ⟨hall, h⟩ => ⟨by rw [hall], fun t => ?_⟩
  · rw [List.append_assoc, hclosing, h]
  · rw [List.append_assoc, hmore]
    exact (List.prefix_append_right_inj _).2 (h t)

theorem inBrackets_caret (h : c ≠ ']') (cs : List Char) :
    inBrackets ('^' :: c :: cs) = '^' :: untilClosing (c :: cs) :=
  inBrackets.eq_2 _ fun _ hx => h (List.cons.inj hx).1

theorem inBrackets_other (h : c ≠ '^') (h' : c ≠ ']') (cs : List Char) :
    inBrackets (c :: cs) = untilClosing (c :: cs) :=
  inBrackets.eq_4 _ (fun _ hx => h (List.cons.inj hx).1) (fun _ hx => h (List.cons.inj hx).1)
    fun _ hx => h' (List.cons.inj hx).1

theorem closesOrTakesAll (cs : List Char) : ClosesOrTakesAll cs := by
  cases cs with
  | nil => exact .inr ⟨rfl, fun t => List.nil_prefix⟩
  | cons c cs =>
    obtain ⟨u, hu⟩ := untilClosing_head c cs
    by_cases hclose : c = ']'
    · subst hclose
      exact closesOrTakesAll_append (s := [']']) rfl (fun t => rfl) fun t => rfl
    by_cases hc : c = '^'
    · subst hc
      cases cs with
      | nil =>
        -- What comes behind may begin with a bracket, which is passed over then.
        refine .inr ⟨rfl, fun t => ?_⟩
        cases t with
        | nil => exact List.prefix_refl _
        | cons d t =>
          by_cases hd : d = ']'
          · subst hd
            exact (List.prefix_cons_inj _).2 List.nil_prefix
          · rw [List.singleton_append, inBrackets_caret hd t]
            exact (List.prefix_cons_inj _).2 List.nil_prefix
      | cons d cs =>
        by_cases hd : d = ']'
        · subst hd
          exact closesOrTakesAll_append (s := ['^', ']']) rfl (fun t => rfl) fun t => rfl
        · obtain ⟨u, hu⟩ := untilClosing_head d cs
          refine closesOrTakesAll_append (s := ['^']) (inBrackets_caret hd cs) (fun t => inBrackets_caret hd _)
            fun t => ?_
          rw [hu]
          exact inBrackets_caret hd _
    · refine closesOrTakesAll_append (s := []) (inBrackets_other hc hclose cs)
        (fun t => inBrackets_other hc hclose _) fun t => ?_
      rw [hu]
      exact inBrackets_other hc hclose _

theorem readLexeme_inBrackets {l : Lexeme} (h : readLexeme '[' cs = .ok (l, rest))
    (hflat : '[' ∉ inBrackets cs) : cs = inBrackets cs ++ rest ∧ l.opens = false := by
  obtain ⟨⟨s, rest'⟩, hclass, heq⟩ := except_map_eq_ok.1 h
  obtain ⟨rfl, rfl⟩ := Prod.mk.inj heq
  obtain ⟨t, hcs, hbrackets⟩ := startClass_inBrackets cs
  rw [hbrackets] at hflat ⊢
  have hend := readClass_untilClosing hclass fun hmem => hflat (List.mem_append_right _ hmem)
  rw [List.drop_zero] at hend
  refine ⟨?_, rfl⟩
  rw [List.append_assoc, ← hend]
  exact hcs

end Signpost.Piece
