import Signpost.Proofs.Rule.Brackets
import Signpost.Proofs.Rule.Pieces

/-!
# Parentheses in a rule

What stands before a parenthesis is expanded as it is by itself. Behind it letters and parentheses
are copied, be it from outside brackets or from inside brackets that are still open.
-/

namespace Signpost.Piece

variable {setting : CategorySetting} {c : Char} {cs rest w : List Char}

/-! ## Copying -/

/-- A reader that copies characters without a meaning, unless a wildcard takes a slash along. -/
def Copying (k : List Char → List Char) : Prop :=
  ∀ c rest, c ∉ ":\\[]".toList → (c = '/' → rest.head? ≠ some ':') → k (c :: rest) = c :: k rest

theorem Copying.letters {k : List Char → List Char} (hk : Copying k)
    (hcs : ∀ c ∈ cs, c ∉ ":\\[]".toList) (hlast : cs.getLast? ≠ some '/') (rest : List Char) :
    k (cs ++ rest) = cs ++ k rest := by
  induction cs with
  | nil => rfl
  | cons c cs ih =>
    obtain ⟨hc, hcs⟩ := List.forall_mem_cons.1 hcs
    cases cs with
    | nil =>
      refine hk c rest hc fun hslash => ?_
      exact absurd (congrArg some hslash) hlast
    | cons d cs =>
      have hd : (d :: cs ++ rest).head? ≠ some ':' := by
        rintro ⟨⟩
        exact hcs ':' List.mem_cons_self (by decide)
      rw [List.cons_append, hk c _ hc fun _ => hd, ih hcs hlast]
      rfl

theorem expandRule_piece {p : Piece} (hsource : p.source = c :: w)
    (hfirst : first c (w ++ rest) = p) :
    (expandRule setting (c :: (w ++ rest))).1 =
      p.expansion setting ++ (expandRule setting rest).1 := by
  rw [expandRule, cut, cutFrom_source hsource hfirst]
  rfl

theorem expandRule_single (hwild : wildcard? (c :: cs) = none) (hc : c ≠ '\\' ∧ c ≠ '[') :
    (expandRule setting (c :: cs)).1 = c :: (expandRule setting cs).1 := by
  by_cases hparen : c = '('
  · subst hparen
    exact expandRule_piece (p := .paren (opensCapture cs)) (w := []) rfl rfl
  · have hfirst : first c cs = char c := by
      unfold first
      rw [hwild]
      split <;> simp_all
    exact expandRule_piece (p := .char c) (w := []) rfl hfirst

theorem first_wildcard {p : Piece} (h : wildcard? (c :: cs) = some p) : first c cs = p := by
  unfold first
  rw [h]

theorem copying_expandRule (setting : CategorySetting) :
    Copying fun rest => (expandRule setting rest).1 := by
  intro c rest hc hslash
  refine expandRule_single (wildcard?_other ?_ ?_) ⟨?_, ?_⟩
  · rintro rfl
    exact hc (by decide)
  · rintro rfl r rfl
    exact hslash rfl rfl
  · rintro rfl
    exact hc (by decide)
  · rintro rfl
    exact hc (by decide)

theorem copying_untilClosing (setting : CategorySetting) :
    Copying fun rest =>
      untilClosing rest ++ (expandRule setting (rest.drop (untilClosing rest).length)).1 := by
  intro c rest hc _
  have hbackslash : c ≠ '\\' := by
    rintro rfl
    exact hc (by decide)
  have hclose : c ≠ ']' := by
    rintro rfl
    exact hc (by decide)
  dsimp only
  rw [untilClosing_cons hbackslash, if_neg hclose]
  rfl

/-! ## What stands before a parenthesis -/

theorem named?_paren (cs rest : List Char) : named? (cs ++ '(' :: rest) = named? cs := by
  refine named?_append_cons (fun k => ?_) cs rest
  cases k <;> decide

theorem wildcard?_paren (c : Char) (cs rest : List Char) :
    wildcard? (c :: (cs ++ '(' :: rest)) = wildcard? (c :: cs) := by
  by_cases hc : c = ':'
  · subst hc
    rw [wildcard?, named?_paren, wildcard?]
  have hslash : ∀ {cs : List Char}, (∀ r, cs ≠ ':' :: r) → wildcard? (c :: cs) = none :=
    fun h => wildcard?_other hc fun _ => h
  cases cs with
  | nil => rw [List.nil_append, hslash fun r => by simp, hslash fun r => by simp]
  | cons d cs =>
    by_cases hd : c = '/' ∧ d = ':'
    · obtain ⟨rfl, rfl⟩ := hd
      rw [List.cons_append, wildcard?, named?_paren, wildcard?]
    · have hother : ∀ x, wildcard? (c :: d :: x) = none := fun x =>
        wildcard?_other hc fun hc r hr => hd ⟨hc, (List.cons.inj hr).1⟩
      rw [List.cons_append, hother, hother]

theorem untilClosing_paren (cs : List Char) :
    (∀ rest, untilClosing (cs ++ '(' :: rest) = untilClosing cs) ∨
      untilClosing cs = cs ∧
        ∀ rest, untilClosing (cs ++ '(' :: rest) = cs ++ '(' :: untilClosing rest := by
  fun_induction untilClosing cs with
  | case1 => exact .inr ⟨rfl, fun rest => rfl⟩
  | case2 => exact .inr ⟨rfl, fun rest => rfl⟩
  | case3 c cs ih =>
    refine ih.imp (fun h rest => ?_) fun h => ⟨by rw [h.1], fun rest => ?_⟩
    · rw [List.cons_append, List.cons_append, untilClosing, h]
    · rw [List.cons_append, List.cons_append, untilClosing, h.2]
      rfl
  | case4 cs => exact .inl fun rest => rfl
  | case5 c cs hlone hescape hclose ih =>
    have hbackslash : c ≠ '\\' := by
      rintro rfl
      cases cs with
      | nil => exact hlone rfl rfl
      | cons d cs => exact hescape d cs rfl rfl
    refine ih.imp (fun h rest => ?_) fun h => ⟨by rw [h.1], fun rest => ?_⟩
    · rw [List.cons_append, untilClosing_cons hbackslash, if_neg hclose, h]
    · rw [List.cons_append, untilClosing_cons hbackslash, if_neg hclose, h.2]
      rfl

theorem inBrackets_split (cs : List Char) :
    ∃ s mid, cs = s ++ mid ∧ inBrackets cs = s ++ untilClosing mid ∧
      ∀ rest, inBrackets (cs ++ '(' :: rest) = s ++ untilClosing (mid ++ '(' :: rest) := by
  cases cs with
  | nil => exact ⟨[], [], rfl, rfl, fun rest => rfl⟩
  | cons c cs =>
    by_cases hclose : c = ']'
    · subst hclose
      exact ⟨[']'], cs, rfl, rfl, fun rest => rfl⟩
    by_cases hc : c = '^'
    · subst hc
      cases cs with
      | nil => exact ⟨['^'], [], rfl, rfl, fun rest => rfl⟩
      | cons d cs =>
        by_cases hd : d = ']'
        · subst hd
          exact ⟨['^', ']'], cs, rfl, rfl, fun rest => rfl⟩
        · exact ⟨['^'], d :: cs, rfl, inBrackets_caret hd cs, fun rest => inBrackets_caret hd _⟩
    · exact ⟨[], c :: cs, rfl, inBrackets_other hc hclose cs,
        fun rest => inBrackets_other hc hclose _⟩

theorem inBrackets_paren (cs : List Char) :
    (∀ rest, inBrackets (cs ++ '(' :: rest) = inBrackets cs) ∨
      inBrackets cs = cs ∧
        ∀ rest, inBrackets (cs ++ '(' :: rest) = cs ++ '(' :: untilClosing rest := by
  obtain ⟨s, mid, rfl, hbrackets, hparen⟩ := inBrackets_split cs
  refine (untilClosing_paren mid).imp (fun h rest => ?_) fun h => ⟨?_, fun rest => ?_⟩
  · rw [hparen, h, hbrackets]
  · rw [hbrackets, h.1]
  · rw [hparen, h.2, List.append_assoc]

/-- The text is expanded by itself in front of a parenthesis, and then something goes on copying. -/
def Stands (setting : CategorySetting) (cs : List Char) : Prop :=
  ∃ k, Copying k ∧ ∀ rest, (expandRule setting (cs ++ '(' :: rest)).1 =
    (expandRule setting cs).1 ++ '(' :: k rest

theorem Stands.prepend {x : List Char} (h : Stands setting rest)
    (hwhole : (expandRule setting cs).1 = x ++ (expandRule setting rest).1)
    (hparen : ∀ t, (expandRule setting (cs ++ '(' :: t)).1 =
      x ++ (expandRule setting (rest ++ '(' :: t)).1) : Stands setting cs := by
  obtain ⟨k, hk, hrest⟩ := h
  exact ⟨k, hk, fun t => by rw [hparen, hrest, hwhole, List.append_assoc]⟩

theorem expandRule_bracket (h : inBrackets (w ++ rest) = w) :
    (expandRule setting ('[' :: (w ++ rest))).1 = '[' :: w ++ (expandRule setting rest).1 :=
  expandRule_piece (p := .bracket ('[' :: w)) rfl
    (congrArg (fun text => bracket ('[' :: text)) h)

theorem stands_bracket (h : ∀ rest, rest.length ≤ cs.length → Stands setting rest) :
    Stands setting ('[' :: cs) := by
  rcases inBrackets_paren cs with hclosed | ⟨hall, hopen⟩
  · obtain ⟨rest, hrest⟩ := prefix_inBrackets cs
    have hlength : rest.length ≤ cs.length := by
      rw [← hrest, List.length_append]
      omega
    have hwhole : (expandRule setting ('[' :: cs)).1 =
        '[' :: inBrackets cs ++ (expandRule setting rest).1 := by
      conv_lhs => rw [← hrest]
      exact expandRule_bracket (congrArg inBrackets hrest)
    refine (h rest hlength).prepend hwhole fun t => ?_
    have hsplit : cs ++ '(' :: t = inBrackets cs ++ (rest ++ '(' :: t) := by
      rw [← List.append_assoc, hrest]
    rw [List.cons_append, hsplit]
    exact expandRule_bracket (by rw [← hsplit, hclosed])
  · refine ⟨_, copying_untilClosing setting, fun t => ?_⟩
    have hwhole : (expandRule setting ('[' :: cs)).1 = '[' :: cs := by
      have hbracket : inBrackets (cs ++ []) = cs := by rw [List.append_nil, hall]
      conv_lhs => rw [← List.append_nil cs]
      exact (expandRule_bracket hbracket).trans (List.append_nil _)
    have hsplit : cs ++ '(' :: t =
        cs ++ '(' :: untilClosing t ++ t.drop (untilClosing t).length := by
      rw [List.append_assoc, List.cons_append,
        List.prefix_iff_eq_append.1 (prefix_untilClosing t)]
    rw [List.cons_append, hwhole, hsplit, expandRule_bracket (by rw [← hsplit, hopen])]
    simp

theorem stands (setting : CategorySetting) (cs : List Char) : Stands setting cs := by
  induction hn : cs.length using Nat.strong_induction_on generalizing cs with
  | _ n ih =>
    cases cs with
    | nil => exact ⟨_, copying_expandRule setting, fun rest => expandRule_single rfl (by decide)⟩
    | cons c cs =>
      rw [List.length_cons] at hn
      cases hwild : wildcard? (c :: cs) with
      | some p =>
        obtain ⟨w, hsource, rest, rfl⟩ := source_wildcard hwild
        rw [List.length_append] at hn
        refine (ih _ (by omega) rest rfl).prepend
          (expandRule_piece hsource (first_wildcard hwild)) fun t => ?_
        rw [List.cons_append, List.append_assoc]
        refine expandRule_piece hsource (first_wildcard ?_)
        rw [← List.append_assoc, wildcard?_paren, hwild]
      | none =>
        by_cases hbackslash : c = '\\'
        · subst hbackslash
          cases cs with
          | nil =>
            exact ⟨_, copying_expandRule setting, fun rest =>
              expandRule_piece (p := .escape (some '(')) (w := ['(']) rfl rfl⟩
          | cons d cs =>
            rw [List.length_cons] at hn
            have hescape : ∀ x, (expandRule setting ('\\' :: d :: x)).1 =
                ['\\', d] ++ (expandRule setting x).1 := fun x =>
              expandRule_piece (p := .escape (some d)) (w := [d]) rfl rfl
            exact (ih _ (by omega) cs rfl).prepend (hescape cs) fun t => hescape _
        by_cases hbracket : c = '['
        · subst hbracket
          exact stands_bracket fun rest hlength => ih _ (by omega) rest rfl
        · have hcopy : ∀ {x : List Char}, wildcard? (c :: x) = none →
              (expandRule setting (c :: x)).1 = [c] ++ (expandRule setting x).1 := fun h =>
            expandRule_single h ⟨hbackslash, hbracket⟩
          refine (ih _ (by omega) cs rfl).prepend (hcopy hwild) fun t => ?_
          rw [List.cons_append]
          exact hcopy ((wildcard?_paren c cs t).trans hwild)

end Signpost.Piece
