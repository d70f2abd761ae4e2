import Signpost.Proofs.Rule.Brackets

/-!
# Counting groups

The scanner of a rule counts the parentheses that open a group without reading the expression. It
counts the groups of the expression unless a class or the name of a group has a bracket inside it.
-/

namespace Signpost

/-- Whether a lexeme takes nothing away and gives no group a name with a bracket. -/
def Regex.Lexeme.isFlat : Lexeme → Bool
  | .openCapture (some name) => !name.contains '['
  | l => !l.drops

theorem Regex.Lexeme.drops_of_isFlat {l : Lexeme} (h : l.isFlat = true) : l.drops = false := by
  cases l with
  | times least most greedy => exact Bool.not_eq_true' _ ▸ h
  | _ => rfl

namespace Piece

open Regex

/-- How many characters behind this one belong to it: one that is escaped, or a class. -/
def passedOver (c : Char) (cs : List Char) : Nat :=
  match c with
  | '\\' => 1
  | '[' => (inBrackets cs).length
  | _ => 0

/-- The places of the parentheses that are counted, after some characters to pass over. There are
none to rely on if a class has a bracket inside it. -/
def counted? : (skip place : Nat) → List Char → Option (List Nat)
  | _, _, [] => some []
  | n + 1, place, _ :: cs => counted? n (place + 1) cs
  | 0, place, c :: cs =>
    if c = '[' ∧ '[' ∈ inBrackets cs then none
    else (counted? (passedOver c cs) (place + 1) cs).map fun later =>
      if c = '(' ∧ opensCapture cs then place :: later else later

/-- The character is nothing to the scanner by itself. -/
def isPassive (c : Char) : Bool := !"\\[(".toList.contains c

variable {c : Char} {cs rest t : List Char} {place : Nat}

theorem isPassive_of_isQuiet (h : isQuiet c = true) : isPassive c = true :=
  not_contains_of (p := isQuiet) (by decide) h

theorem passedOver_of_isPassive (h : isPassive c = true) (cs : List Char) :
    passedOver c cs = 0 := by
  unfold passedOver
  split <;> first | rfl | cases h

theorem counted?_skip (t rest : List Char) (place : Nat) :
    counted? t.length place (t ++ rest) = counted? 0 (place + t.length) rest := by
  induction t generalizing place with
  | nil => rfl
  | cons d t ih =>
    rw [List.length_cons, List.cons_append, counted?, ih, Nat.add_assoc, Nat.add_comm 1]

theorem counted?_passive (h : t.all isPassive = true) (rest : List Char) (place : Nat) :
    counted? 0 place (t ++ rest) = counted? 0 (place + t.length) rest := by
  induction t generalizing place with
  | nil => rfl
  | cons d t ih =>
    rw [List.all_cons, Bool.and_eq_true] at h
    obtain ⟨hd, ht⟩ := h
    have hbracket : ¬ (d = '[' ∧ '[' ∈ inBrackets (t ++ rest)) := by
      rintro ⟨rfl, -⟩
      cases hd
    have hparen : ¬ (d = '(' ∧ opensCapture (t ++ rest) = true) := by
      rintro ⟨rfl, -⟩
      cases hd
    rw [List.cons_append, counted?, if_neg hbracket, passedOver_of_isPassive hd, ih ht]
    simp only [if_neg hparen, Option.map_id_fun', id, List.length_cons, Nat.add_assoc,
      Nat.add_comm 1]

/-! ## Lexemes and what is passed over -/

/-- Behind a character comes what belongs to it, then passive characters, and the rest. -/
def Leaves (c : Char) (cs rest : List Char) : Prop :=
  ∃ own passive, cs = own ++ (passive ++ rest) ∧ own.length = passedOver c cs ∧
    passive.all isPassive = true

theorem Leaves.of_passes (h : passedOver c cs = 0) (hpasses : Passes cs rest) :
    Leaves c cs rest := by
  obtain ⟨t, rfl, ht⟩ := hpasses
  exact ⟨[], t, rfl, h.symm, List.all_eq_true.2 fun d hd => isPassive_of_isQuiet (ht d hd)⟩

theorem Leaves.counted? (h : Leaves c cs rest) (place : Nat) :
    counted? (passedOver c cs) place cs = counted? 0 (place + (cs.length - rest.length)) rest := by
  obtain ⟨own, passive, hcs, hlength, hpassive⟩ := h
  rw [← hlength]
  subst hcs
  rw [counted?_skip, counted?_passive hpassive]
  congr 1
  simp
  omega

theorem leaves_opening {l : Lexeme} (h : readOpening cs = .ok (l, rest))
    (hl : l.isFlat = true) :
    Leaves '(' cs rest ∧ l.opens = opensCapture cs := by
  have hnamed : ∀ {s cs : List Char}, s.all isPassive = true →
      readName cs = .ok (l, rest) → Leaves '(' (s ++ cs) rest ∧ l.opens = true := by
    intro s cs hs h
    obtain ⟨name, rfl, hpasses⟩ := passes_name h
    obtain ⟨t, rfl, ht⟩ := hpasses (by simpa [Lexeme.isFlat] using hl)
    have hpassive : t.all isPassive = true := by
      refine List.all_eq_true.2 fun d hd => ?_
      obtain ⟨hbackslash, hbracket, hparen⟩ := ht d hd
      simp [isPassive, hbackslash, hbracket, hparen]
    refine ⟨⟨[], s ++ t, by simp, rfl, ?_⟩, rfl⟩
    rw [List.all_append, hs, hpassive]
    rfl
  unfold readOpening at h
  split at h
  · cases h
  · cases h
  · cases h
  · cases h
  · next cs => exact hnamed (s := ['?', 'P', '<']) (by decide) h
  · next cs hequal hbang =>
    obtain ⟨hleaves, hopens⟩ := hnamed (s := ['?', '<']) (by decide) h
    exact ⟨hleaves, hopens.trans (opensCapture.eq_4 cs hequal hbang).symm⟩
  · next cs hequal hbang _ _ hnamed hangle =>
    obtain ⟨hpasses, hopens⟩ := passes_flags h
    refine ⟨.of_passes rfl (.cons (by decide) hpasses), hopens.trans ?_⟩
    unfold opensCapture
    split <;> simp_all
  · next hquestion =>
    cases h
    refine ⟨.of_passes rfl (.refl _), ?_⟩
    unfold opensCapture
    split <;> simp_all [Lexeme.opens]

theorem leaves_lexeme {l : Lexeme} (h : readLexeme c cs = .ok (l, rest))
    (hflat : c = '[' → '[' ∉ inBrackets cs)
    (hl : l.isFlat = true) :
    Leaves c cs rest ∧ (l.opens = true ↔ c = '(' ∧ opensCapture cs = true) := by
  have hother : ∀ {c : Char} {l : Lexeme}, c ≠ '(' → passedOver c cs = 0 →
      Passes cs rest ∧ l.opens = false →
        Leaves c cs rest ∧ (l.opens = true ↔ c = '(' ∧ opensCapture cs = true) := by
    rintro c l hparen hpassed ⟨hpasses, hopens⟩
    refine ⟨.of_passes hpassed hpasses, ?_⟩
    simp [hopens, hparen]
  unfold readLexeme at h
  split at h
  case h_1 =>
    obtain ⟨hleaves, hopens⟩ := leaves_opening h hl
    rw [hopens]
    exact ⟨hleaves, (and_iff_right rfl).symm⟩
  case h_4 =>
    obtain ⟨hcs, hopens⟩ := readLexeme_inBrackets h (hflat rfl)
    refine ⟨⟨inBrackets cs, [], hcs, rfl, by simp⟩, ?_⟩
    simp [hopens]
  case h_5 => exact hother (by decide) rfl (passes_greed (Except.ok.inj h))
  case h_6 => exact hother (by decide) rfl (passes_greed (Except.ok.inj h))
  case h_7 => exact hother (by decide) rfl (passes_greed (Except.ok.inj h))
  case h_8 => exact hother (by decide) rfl (passes_braces h)
  case h_12 =>
    obtain ⟨⟨e, rest'⟩, hescape, heq⟩ := except_map_eq_ok.1 h
    obtain ⟨rfl, rfl⟩ := Prod.mk.inj heq
    cases cs with
    | nil => cases hescape
    | cons d cs =>
      obtain ⟨t, rfl, ht⟩ := passes_escape hescape
      have hpassive : t.all isPassive = true :=
        List.all_eq_true.2 fun x hx => isPassive_of_isQuiet (ht x hx)
      refine ⟨⟨[d], t, rfl, rfl, hpassive⟩, ?_⟩
      cases e <;> simp [Escape.lexeme, Lexeme.opens]
  case h_13 hparen _ _ hbracket _ _ _ _ _ _ _ hbackslash =>
    cases h
    refine hother hparen ?_ ⟨.refl _, rfl⟩
    unfold passedOver
    split <;> first | rfl | contradiction
  all_goals
    cases h
    exact hother (by decide) rfl ⟨.refl _, rfl⟩

/-- The groups that the reader of a text opens are those that the scanner counts, if no class and no
name has a bracket inside it. -/
theorem openings_of_counted? {ls : List Lexeme} {places : List Nat} (h : lexemes 0 cs = .ok ls)
    (hcounted : counted? 0 place cs = some places)
    (hflat : ∀ l ∈ ls, l.isFlat = true) :
    openings 0 place cs = places := by
  -- A lexeme may take any number of characters, so the induction is on the length.
  induction hn : cs.length using Nat.strong_induction_on generalizing cs ls place places with
  | _ n ih =>
    cases cs with
    | nil =>
      cases hcounted
      rfl
    | cons c cs =>
      rw [lexemes_cons] at h
      obtain ⟨⟨l, rest⟩, hread, h⟩ := bind_eq_ok.1 h
      obtain ⟨ls, hrest, rfl⟩ := except_map_eq_ok.1 h
      rw [counted?] at hcounted
      split at hcounted
      · cases hcounted
      · next hbrackets =>
        obtain ⟨later, hlater, rfl⟩ := Option.map_eq_some_iff.1 hcounted
        obtain ⟨hleaves, hopens⟩ := leaves_lexeme hread (fun hc hmem => hbrackets ⟨hc, hmem⟩)
          (hflat l List.mem_cons_self)
        rw [hleaves.counted?] at hlater
        have hopenings : openings (cs.length - rest.length) (place + 1) cs = later := by
          obtain ⟨own, passive, hcs, -, -⟩ := hleaves
          rw [← List.append_assoc] at hcs
          subst hcs
          have hskip : (own ++ passive ++ rest).length - rest.length = (own ++ passive).length := by
            rw [List.length_append, Nat.add_sub_cancel]
          rw [hskip] at hlater ⊢
          rw [openings_skip]
          refine ih rest.length ?_ hrest hlater
            (fun l hl => hflat l (List.mem_cons_of_mem _ hl)) rfl
          simp only [List.length_cons, List.length_append] at hn
          omega
        rw [openings, hread]
        simp only [hopenings, hopens]

end Piece

end Signpost
