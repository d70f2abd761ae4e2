import Mathlib.Data.List.Forall2
import Signpost.Proofs.Rule.Parentheses

/-!
# Factorisations of a rule

Which piece stands at the front of a text is told here by the text alone, piece by piece and without
a scanner. A rule has one factorisation into such pieces; its expansion replaces the wildcards among
them and copies the others.
-/

namespace Signpost.Piece

variable {slash : Bool} {kind : Kind} {c : Char} {cs rest text : List Char} {p : Piece}
  {ps : List Piece}

/-! ## The front of a text -/

/-- A wildcard stands at the front, behind a slash if its kind takes one along. -/
def Fronts (slash : Bool) (kind : Kind) (text : List Char) : Prop :=
  (slash = true → takesSlash kind = true) ∧ (wildcard slash kind).source <+: text

/-- The rest of a class, with the bracket that closes it or up to the end of the text. -/
inductive Closes : List Char → List Char → Prop
  | bracket (rest : List Char) : Closes [']'] rest
  | unclosed : Closes [] []
  | backslash : Closes ['\\'] []
  | escape {t rest : List Char} (c : Char) (h : Closes t rest) : Closes ('\\' :: c :: t) rest
  | char {c : Char} {t rest : List Char} (hc : c ≠ '\\' ∧ c ≠ ']') (h : Closes t rest) :
    Closes (c :: t) rest

/-- A character is taken where it stands at the front of a text. -/
def Taken (c : Char) (w text : List Char) : Prop := w = if text.head? = some c then [c] else []

/-- The inside of a class, where a circumflex and a closing bracket at the start do not close it. -/
def InClass (inside rest : List Char) : Prop :=
  ∃ caret bracket t, inside = caret ++ (bracket ++ t) ∧ Taken '^' caret (inside ++ rest) ∧
    Taken ']' bracket (bracket ++ t ++ rest) ∧ Closes t rest

/-- What is behind a parenthesis does not keep its group from capturing. -/
def OpensGroup (rest : List Char) : Prop :=
  ¬"?".toList <+: rest ∨ "?P<".toList <+: rest ∨
    "?<".toList <+: rest ∧ ¬"?<=".toList <+: rest ∧ ¬"?<!".toList <+: rest

/-- A piece that is copied stands at the front. -/
inductive Copied : Piece → List Char → Prop
  | escape {next : Option Char} {rest : List Char} (h : next = none → rest = []) :
    Copied (.escape next) ('\\' :: (next.toList ++ rest))
  | bracket {inside rest : List Char} (h : InClass inside rest) :
    Copied (.bracket ('[' :: inside)) ('[' :: (inside ++ rest))
  | paren {captures : Bool} {rest : List Char} (h : captures = true ↔ OpensGroup rest) :
    Copied (.paren captures) ('(' :: rest)
  | char {c : Char} (rest : List Char) (hc : c ≠ '\\' ∧ c ≠ '[' ∧ c ≠ '(') :
    Copied (.char c) (c :: rest)

/-- The piece at the front: the wildcard with the longest name if there is one, else one that is
copied. -/
inductive Leads : Piece → List Char → Prop
  | wildcard {slash : Bool} {kind : Kind} {text : List Char} (h : Fronts slash kind text)
    (hlongest : ∀ s k, Fronts s k text → k.name.length ≤ kind.name.length) :
    Leads (.wildcard slash kind) text
  | copied {p : Piece} {text : List Char} (hnone : ∀ s k, ¬Fronts s k text) (h : Copied p text) :
    Leads p text

/-- The pieces in a row are the rule, and each is the one at the front of what is left. -/
structure Factors (rule : List Char) (pieces : List Piece) : Prop where
  covers : pieces.flatMap source = rule
  source_ne_nil : ∀ p ∈ pieces, p.source ≠ []
  leads : ∀ before p after, pieces = before ++ p :: after → Leads p ((p :: after).flatMap source)

/-- What a piece adds to the expansion and to the kinds: a wildcard a group for what it takes, with its
kind; and every other piece its own text, with no kind for a parenthesis that captures. -/
inductive Adds (setting : CategorySetting) : Piece → List Char × List (Option Kind) → Prop
  | segment {slash : Bool} {kind : Kind}
    (h : kind ∈ [Kind.any, .urlTitle, .categoryUrlTitle, .username]) :
    Adds setting (.wildcard slash kind) ("([^/]+)".toList, [some kind])
  | number {slash : Bool} {kind : Kind} (h : kind ∈ [Kind.num, .entryId, .categoryId, .memberId]) :
    Adds setting (.wildcard slash kind) ("([0-9]+)".toList, [some kind])
  | year (slash : Bool) :
    Adds setting (.wildcard slash .year) ("([0-9]\x7b4\x7d)".toList, [some .year])
  | date {slash : Bool} {kind : Kind} (h : kind ∈ [Kind.month, .day]) :
    Adds setting (.wildcard slash kind) ("([0-9]\x7b2\x7d)".toList, [some kind])
  | pagination (slash : Bool) :
    Adds setting (.wildcard slash .pagination) ("((?:/P[0-9]+)?)".toList, [some .pagination])
  | all (slash : Bool) : Adds setting (.wildcard slash .all) ("((?:/.*)?)".toList, [some .all])
  | categoryName (slash : Bool) (h : setting.byName = true) :
    Adds setting (.wildcard slash .category)
      (Regex.escape setting.word.toList ++ "/([^/]+)".toList, [some .category])
  | categoryNumber (slash : Bool) (h : setting.byName = false) :
    Adds setting (.wildcard slash .category)
      (Regex.escape setting.word.toList ++ "/([0-9]+)".toList, [some .category])
  | escape (next : Option Char) : Adds setting (.escape next) ('\\' :: next.toList, [])
  | bracket (text : List Char) : Adds setting (.bracket text) (text, [])
  | group : Adds setting (.paren true) (['('], [none])
  | paren : Adds setting (.paren false) (['('], [])
  | char (c : Char) : Adds setting (.char c) ([c], [])

/-! ## Names of wildcards -/

theorem byName_pairwise :
    byName.Pairwise fun k k' => k.name.toList <+: k'.name.toList → k = k' := by
  decide

theorem exists_named? (h : kind.name.toList <+: cs) : ∃ k, named? cs = some k := by
  rw [← Option.ne_none_iff_exists', Ne, named?_eq_none_iff]
  intro hnone
  exact hnone kind h

theorem prefix_of_named? {k k' : Kind} (h : named? cs = some k) (hk' : k'.name.toList <+: cs) :
    k'.name.toList <+: k.name.toList := by
  obtain ⟨hk, before, after, hsplit, hbefore⟩ := List.find?_eq_some_iff_append.1 h
  rcases List.prefix_or_prefix_of_prefix hk' (List.isPrefixOf_iff_prefix.1 hk) with hle | hle
  · exact hle
  · have hmem : k' ∈ before ++ k :: after := by
      rw [← hsplit]
      cases k' <;> decide
    rcases List.mem_append.1 hmem with hmem | hmem
    · have hmissed := hbefore k' hmem
      rw [List.isPrefixOf_iff_prefix.2 hk'] at hmissed
      cases hmissed
    · -- A name that is tried later does not begin with the one that was found.
      have hpairwise := byName_pairwise
      rw [hsplit, List.pairwise_append, List.pairwise_cons] at hpairwise
      rcases List.mem_cons.1 hmem with rfl | hmem
      · exact List.prefix_rfl
      · obtain rfl : k = k' := hpairwise.2.1.1 k' hmem hle
        exact List.prefix_rfl

theorem name_inj {k k' : Kind} (h : k.name.toList = k'.name.toList) : k = k' := by
  have hk := Kind.ofName?_name k
  rw [String.toList_inj.1 h, Kind.ofName?_name] at hk
  exact (Option.some.inj hk).symm

theorem named?_eq_some_iff :
    named? cs = some kind ↔ kind.name.toList <+: cs ∧
      ∀ k : Kind, k.name.toList <+: cs → k.name.length ≤ kind.name.length := by
  constructor
  · intro h
    refine ⟨name_prefix_of_named? h, fun k hk => ?_⟩
    have hle := (prefix_of_named? h hk).length_le
    rwa [String.length_toList, String.length_toList] at hle
  · rintro ⟨hkind, hlongest⟩
    obtain ⟨k, hk⟩ := exists_named? hkind
    have hfits := prefix_of_named? hk hkind
    have hle := hlongest k (name_prefix_of_named? hk)
    rw [← String.length_toList, ← String.length_toList] at hle
    rw [hk, name_inj (hfits.eq_of_length_le hle)]

theorem named?_of_takesSlash (h : takesSlash kind = true) (hkind : kind.name.toList <+: cs) :
    named? cs = some kind := by
  -- No other name begins with that of a kind that takes its slash along.
  have halone : ∀ k : Kind, kind.name.toList <+: k.name.toList → k = kind := by
    revert h
    cases kind <;> intro h k <;> cases k <;> revert h <;> decide
  obtain ⟨k, hk⟩ := exists_named? hkind
  rw [hk, halone k (prefix_of_named? hk hkind)]

/-! ## Wildcards -/

theorem fronts_colon : Fronts slash kind (':' :: cs) ↔ slash = false ∧ kind.name.toList <+: cs := by
  cases slash <;> simp [Fronts, source]

theorem fronts_slash : Fronts slash kind ('/' :: ':' :: cs) ↔
    slash = true ∧ takesSlash kind = true ∧ kind.name.toList <+: cs := by
  cases slash <;> simp [Fronts, source]

theorem not_fronts (hslash : ∀ cs, text ≠ '/' :: ':' :: cs) (hcolon : ∀ cs, text ≠ ':' :: cs) :
    ¬Fronts slash kind text := by
  rintro ⟨-, r, rfl⟩
  cases slash with
  | false => exact hcolon _ rfl
  | true => exact hslash _ rfl

theorem wildcard?_eq_some_iff :
    wildcard? text = some p ↔ ∃ s k, p = wildcard s k ∧ Fronts s k text ∧
      ∀ s' k', Fronts s' k' text → k'.name.length ≤ k.name.length := by
  unfold wildcard?
  split
  · next cs =>
    simp only [fronts_slash, Option.map_eq_some_iff, Option.filter_eq_some_iff]
    constructor
    · rintro ⟨k, ⟨hk, htakes⟩, rfl⟩
      obtain ⟨hfits, hlongest⟩ := named?_eq_some_iff.1 hk
      exact ⟨true, k, rfl, ⟨rfl, htakes, hfits⟩, fun _ k' h => hlongest k' h.2.2⟩
    · rintro ⟨s, k, rfl, ⟨rfl, htakes, hfits⟩, -⟩
      exact ⟨k, ⟨named?_of_takesSlash htakes hfits, htakes⟩, rfl⟩
  · next cs =>
    simp only [fronts_colon, Option.map_eq_some_iff, named?_eq_some_iff]
    constructor
    · rintro ⟨k, ⟨hfits, hlongest⟩, rfl⟩
      exact ⟨false, k, rfl, ⟨rfl, hfits⟩, fun _ k' h => hlongest k' h.2⟩
    · rintro ⟨s, k, rfl, ⟨rfl, hfits⟩, hlongest⟩
      exact ⟨k, ⟨hfits, fun k' h => hlongest false k' ⟨rfl, h⟩⟩, rfl⟩
  · next hslash hcolon =>
    refine iff_of_false nofun ?_
    rintro ⟨s, k, -, hfronts, -⟩
    exact not_fronts hslash hcolon hfronts

theorem wildcard?_eq_none_iff : wildcard? text = none ↔ ∀ s k, ¬Fronts s k text := by
  constructor
  · intro h s k hfronts
    unfold wildcard? at h
    split at h
    · obtain ⟨rfl, htakes, hfits⟩ := fronts_slash.1 hfronts
      rw [named?_of_takesSlash htakes hfits, Option.filter_some, if_pos htakes] at h
      cases h
    · obtain ⟨rfl, hfits⟩ := fronts_colon.1 hfronts
      obtain ⟨k', hk'⟩ := exists_named? hfits
      rw [hk'] at h
      cases h
    · next hslash hcolon => exact not_fronts hslash hcolon hfronts
  · intro h
    rw [Option.eq_none_iff_forall_ne_some]
    intro p hp
    obtain ⟨s, k, -, hfronts, -⟩ := wildcard?_eq_some_iff.1 hp
    exact h s k hfronts

/-! ## Classes and parentheses -/

theorem opensCapture_iff : opensCapture rest = true ↔ OpensGroup rest := by
  unfold opensCapture OpensGroup
  split <;> simp_all [List.IsPrefix, eq_comm]

theorem closes_untilClosing (h : untilClosing cs ++ rest = cs) :
    Closes (untilClosing cs) rest := by
  fun_induction untilClosing cs with
  | case1 =>
    obtain rfl : rest = [] := h
    exact .unclosed
  | case2 =>
    obtain rfl : rest = [] := by simpa using h
    exact .backslash
  | case3 c cs ih =>
    apply Closes.escape
    apply ih
    simpa using h
  | case4 cs => exact .bracket rest
  | case5 c cs hlone hescape hclose ih =>
    have hbackslash : c ≠ '\\' := by
      rintro rfl
      cases cs with
      | nil => exact hlone rfl rfl
      | cons d cs => exact hescape d cs rfl rfl
    apply Closes.char ⟨hbackslash, hclose⟩
    apply ih
    simpa using h

theorem Closes.untilClosing_eq (h : Closes cs rest) : untilClosing (cs ++ rest) = cs := by
  induction h with
  | bracket rest => exact untilClosing_cons (by decide) rest
  | unclosed => rfl
  | backslash => rfl
  | escape c _ ih => rw [List.cons_append, List.cons_append, untilClosing, ih]
  | char hc _ ih => rw [List.cons_append, untilClosing_cons hc.1, if_neg hc.2, ih]

theorem exists_taken (c : Char) (text : List Char) :
    ∃ w rest, text = w ++ rest ∧ Taken c w (w ++ rest) := by
  by_cases h : text.head? = some c
  · obtain ⟨rest, rfl⟩ := List.head?_eq_some_iff.1 h
    exact ⟨[c], rest, rfl, by simp [Taken]⟩
  · exact ⟨[], text, rfl, by simp [Taken, h]⟩

theorem inBrackets_taken {caret bracket t : List Char}
    (hcaret : Taken '^' caret (caret ++ (bracket ++ t)))
    (hbracket : Taken ']' bracket (bracket ++ t)) :
    inBrackets (caret ++ (bracket ++ t)) = caret ++ (bracket ++ untilClosing t) := by
  unfold Taken at hcaret hbracket
  split at hbracket
  · subst hbracket
    split at hcaret <;> subst hcaret <;> rfl
  · next hclose =>
    subst hbracket
    cases t with
    | nil => split at hcaret <;> subst hcaret <;> rfl
    | cons c t =>
      have hc : c ≠ ']' := fun h => hclose (by simp [h])
      split at hcaret
      · subst hcaret
        exact inBrackets_caret hc t
      · next hcircumflex =>
        subst hcaret
        exact inBrackets_other (fun h => hcircumflex (by simp [h])) hc t

theorem inClass_inBrackets (h : inBrackets cs ++ rest = cs) : InClass (inBrackets cs) rest := by
  obtain ⟨caret, u, rfl, hcaret⟩ := exists_taken '^' cs
  obtain ⟨bracket, t, rfl, hbracket⟩ := exists_taken ']' u
  have hinside := inBrackets_taken hcaret hbracket
  have hclosing : untilClosing t ++ rest = t := by simpa [hinside] using h
  refine ⟨caret, bracket, untilClosing t, hinside, ?_, ?_, closes_untilClosing hclosing⟩
  · rwa [h]
  · rwa [List.append_assoc, hclosing]

theorem InClass.inBrackets_eq (h : InClass cs rest) : inBrackets (cs ++ rest) = cs := by
  obtain ⟨caret, bracket, t, rfl, hcaret, hbracket, hcloses⟩ := h
  rw [List.append_assoc, List.append_assoc] at hcaret ⊢
  rw [List.append_assoc] at hbracket
  rw [inBrackets_taken hcaret hbracket, hcloses.untilClosing_eq]

/-! ## The first piece -/

theorem first_of_copied (hnone : ∀ s k, ¬Fronts s k (c :: cs)) (h : Copied p (c :: cs)) :
    first c cs = p := by
  have hwild := wildcard?_eq_none_iff.2 hnone
  cases h with
  | @escape next rest h =>
    cases next with
    | none =>
      obtain rfl := h rfl
      rfl
    | some d => rfl
  | bracket h => exact congrArg (fun inside => bracket ('[' :: inside)) h.inBrackets_eq
  | paren h => exact congrArg paren (Bool.eq_iff_iff.2 (opensCapture_iff.trans h.symm))
  | char _ hc =>
    unfold first
    rw [hwild]
    split <;> simp_all

theorem copied_first (hnone : ∀ s k, ¬Fronts s k (c :: cs)) : Copied (first c cs) (c :: cs) := by
  by_cases hbackslash : c = '\\'
  · subst hbackslash
    cases cs with
    | nil => exact @Copied.escape none [] fun _ => rfl
    | cons d cs => exact @Copied.escape (some d) cs nofun
  by_cases hbracket : c = '['
  · subst hbracket
    obtain ⟨rest, hrest⟩ := prefix_inBrackets cs
    have hcopied := Copied.bracket (inClass_inBrackets hrest)
    rwa [hrest] at hcopied
  by_cases hparen : c = '('
  · subst hparen
    exact .paren opensCapture_iff
  · have hcopied : Copied (char c) (c :: cs) := .char cs ⟨hbackslash, hbracket, hparen⟩
    rwa [first_of_copied hnone hcopied]

theorem leads_iff : Leads p (c :: cs) ↔ p = first c cs := by
  constructor
  · intro h
    cases h with
    | wildcard h hlongest =>
      exact (first_wildcard (wildcard?_eq_some_iff.2 ⟨_, _, rfl, h, hlongest⟩)).symm
    | copied hnone h => exact (first_of_copied hnone h).symm
  · rintro rfl
    cases hwild : wildcard? (c :: cs) with
    | some p =>
      obtain ⟨s, k, rfl, hfronts, hlongest⟩ := wildcard?_eq_some_iff.1 hwild
      rw [first_wildcard hwild]
      exact .wildcard hfronts hlongest
    | none =>
      have hnone := wildcard?_eq_none_iff.1 hwild
      exact .copied hnone (copied_first hnone)

/-! ## All pieces -/

theorem factors_cons_iff : Factors text (p :: ps) ↔
    ∃ rest, text = p.source ++ rest ∧ p.source ≠ [] ∧ Leads p text ∧ Factors rest ps := by
  constructor
  · rintro ⟨rfl, hne, hleads⟩
    obtain ⟨hp, hps⟩ := List.forall_mem_cons.1 hne
    refine ⟨ps.flatMap source, rfl, hp, hleads [] p ps rfl, rfl, hps, ?_⟩
    rintro before q after rfl
    exact hleads (p :: before) q after rfl
  · rintro ⟨rest, rfl, hp, hfront, rfl, hps, hleads⟩
    refine ⟨rfl, List.forall_mem_cons.2 ⟨hp, hps⟩, ?_⟩
    intro before q after h
    cases before with
    | nil =>
      obtain ⟨rfl, rfl⟩ := List.cons.inj h
      exact hfront
    | cons _ before => exact hleads before q after (List.cons.inj h).2

/-- Cutting gives the one factorisation of a rule. -/
theorem factors_iff : Factors text ps ↔ ps = cut text := by
  induction ps generalizing text with
  | nil =>
    cases text with
    | nil => exact iff_of_true ⟨rfl, by simp, by simp⟩ rfl
    | cons c cs => exact iff_of_false (fun h => by cases h.covers) nofun
  | cons p ps ih =>
    rw [factors_cons_iff]
    constructor
    · rintro ⟨rest, rfl, hp, hleads, hrest⟩
      obtain ⟨c, w, hsource⟩ := List.exists_cons_of_ne_nil hp
      rw [hsource, List.cons_append] at hleads ⊢
      rw [ih.1 hrest]
      exact (cutFrom_source hsource (leads_iff.1 hleads).symm).symm
    · intro h
      cases text with
      | nil => cases h
      | cons c cs =>
        obtain ⟨w, rest, rfl, hsource, hcut⟩ := cut_cons c cs
        obtain ⟨rfl, hps⟩ := List.cons.inj (h.trans hcut)
        exact ⟨rest, by rw [hsource]; rfl, by rw [hsource]; simp, leads_iff.2 rfl, ih.2 hps⟩

theorem Factors.length_le (h : Factors text ps) : ps.length ≤ text.length := by
  induction ps generalizing text with
  | nil => exact Nat.zero_le _
  | cons p ps ih =>
    obtain ⟨rest, rfl, hp, -, hrest⟩ := factors_cons_iff.1 h
    have hsource := List.length_pos_iff.2 hp
    have hle := ih hrest
    simp only [List.length_cons, List.length_append]
    omega

end Signpost.Piece

namespace Signpost

open Piece

theorem Piece.adds (setting : CategorySetting) (p : Piece) :
    Adds setting p (p.expansion setting, p.kinds) := by
  cases p with
  | wildcard slash kind =>
    cases kind
    case any | urlTitle | categoryUrlTitle | username => exact .segment (by decide)
    case num | entryId | categoryId | memberId => exact .number (by decide)
    case month | day => exact .date (by decide)
    case year => exact .year slash
    case pagination => exact .pagination slash
    case all => exact .all slash
    case category =>
      have hname : '/' :: "([^/]+)".toList = "/([^/]+)".toList := by decide
      have hnumber : '/' :: "([0-9]+)".toList = "/([0-9]+)".toList := by decide
      have hexpansion : (wildcard slash .category).expansion setting =
          Regex.escape setting.word.toList ++
            '/' :: (if setting.byName then "([^/]+)".toList else "([0-9]+)".toList) := rfl
      rw [hexpansion]
      cases hsetting : setting.byName with
      | true =>
        rw [if_pos rfl, hname]
        exact .categoryName slash hsetting
      | false =>
        rw [if_neg Bool.false_ne_true, hnumber]
        exact .categoryNumber slash hsetting
  | escape next => exact .escape next
  | bracket text => exact .bracket text
  | paren captures =>
    cases captures with
    | true => exact .group
    | false => exact .paren
  | char c => exact .char c

/-- A rule has one factorisation, with no more pieces than characters. Its expansion is what the pieces
add in a row, and whatever is written in a piece that is no wildcard stays where it is. -/
theorem expandRule_factors (setting : CategorySetting) (rule : List Char) :
    ∃ pieces, (∀ other, Factors rule other ↔ other = pieces) ∧ pieces.length ≤ rule.length ∧
      (∃ added, List.Forall₂ (Adds setting) pieces added ∧
        expandRule setting rule = (added.flatMap Prod.fst, added.flatMap Prod.snd)) ∧
      ∀ before p after, pieces = before ++ p :: after → (∀ slash kind, p ≠ .wildcard slash kind) →
        (expandRule setting rule).1 =
          before.flatMap (expansion setting) ++ p.source ++ after.flatMap (expansion setting) := by
  refine ⟨cut rule, fun other => factors_iff, (factors_iff.2 rfl).length_le, ?_, ?_⟩
  · refine ⟨(cut rule).map fun p => (p.expansion setting, p.kinds), ?_, ?_⟩
    · exact List.forall₂_map_right_iff.2 (List.forall₂_same.2 fun p _ => p.adds setting)
    · rw [List.flatMap_map, List.flatMap_map]
      rfl
  intro before p after hcut hp
  -- Only wildcards stand for anything but their own text.
  have hcopy : p.expansion setting = p.source := by
    cases p with
    | wildcard slash kind => exact absurd rfl (hp slash kind)
    | _ => rfl
  simp only [expandRule, hcut, List.flatMap_append, List.flatMap_cons, hcopy, List.append_assoc]

example : expandRule {} "[:any]\\:num:category_id".toList =
    ("[:any]\\:num([0-9]+)".toList, [some .categoryId]) := by
  decide

end Signpost
