import Signpost.Proofs.Regex.Branches
import Signpost.Proofs.Rule.Parentheses
import Signpost.Proofs.Rule.Plain
import Signpost.Proofs.Rule.References
import Signpost.Proofs.Rule.Untyped

/-!
# Choices between words in a rule

A rule may offer words in a group that does not capture, with fixed text around it. It is passed on
as it stands, and so matches the words between the text around them, unless the colon of the group
and what the first word begins with are the name of a wildcard.
-/

namespace Signpost.Regex

variable {words : List (List Char)} {before after w : List Char}

/-! ## Cutting into lexemes -/

def choiceLexemes (before : List Char) (words : List (List Char)) (after : List Char) :
    List Lexeme :=
  letterLexemes before ++ ([.openPlain []] ++
    ([.bar].intercalate (words.map letterLexemes) ++ ([.close] ++ letterLexemes after)))

def choiceText (before : List Char) (words : List (List Char)) (after : List Char) : List Char :=
  before ++ ("(?:".toList ++ (['|'].intercalate words ++ ([')'] ++ after)))

open Plain (Lexes)

theorem lexes_word (h : ∀ c ∈ w, isOperator c = false) : Lexes w (letterLexemes w) :=
  lexemes_letters h

theorem lexes_words (h : ∀ w ∈ words, ∀ c ∈ w, isOperator c = false) :
    Lexes (['|'].intercalate words) ([.bar].intercalate (words.map letterLexemes)) := by
  have hbar : Lexes ['|'] [.bar] := fun rest => lexemes_step rfl
  induction words with
  | nil => exact .nil
  | cons w words ih =>
    obtain ⟨hw, hwords⟩ := List.forall_mem_cons.1 h
    cases words with
    | nil => simpa using lexes_word hw
    | cons w' words =>
      rw [List.map_cons, List.map_cons, List.intercalate_cons_cons, List.intercalate_cons_cons]
      exact ((lexes_word hw).append hbar).append (ih hwords)

theorem lexes_choice (hbefore : ∀ c ∈ before, isOperator c = false)
    (hwords : ∀ w ∈ words, ∀ c ∈ w, isOperator c = false)
    (hafter : ∀ c ∈ after, isOperator c = false) :
    Lexes (choiceText before words after) (choiceLexemes before words after) := by
  have hopen : Lexes "(?:".toList [.openPlain []] := fun rest => lexemes_step rfl
  have hclose : Lexes [')'] [.close] := fun rest => lexemes_step rfl
  exact (lexes_word hbefore).append (hopen.append ((lexes_words hwords).append
    (hclose.append (lexes_word hafter))))

/-! ## Putting them together -/

/-- The branch that a word is read into. -/
def wordBranch (w : List Char) : Nested := (Level.mk [] (wordParts w)).branch

theorem expr_wordBranch (w : List Char) : (wordBranch w).expr = .ofWord w := by
  rw [wordBranch, Level.branch, filterMap_wordParts, Expr.seq_of_isPart (Expr.isPart_letters w),
    Expr.ofWord]

theorem depth_wordBranch_le (w : List Char) : (wordBranch w).depth ≤ 1 := by
  refine listDepth_le fun d hd => ?_
  obtain ⟨p, hp, rfl⟩ := List.mem_map.1 hd
  exact Nat.le_of_eq (depth_of_mem_wordParts hp)

theorem foldlM_words (hne : words ≠ []) (r : Reading) (hflags : r.flags = {})
    (hparts : r.level.parts = []) :
    ∃ level : Level, ([.bar].intercalate (words.map letterLexemes)).foldlM Reading.step r =
        .ok { r with level } ∧
      (level.branch :: level.branches).reverse =
        r.level.branches.reverse ++ words.map wordBranch := by
  induction words generalizing r with
  | nil => exact absurd rfl hne
  | cons w words ih =>
    have hword := foldlM_word w r hflags
    rw [hparts, List.append_nil] at hword
    cases words with
    | nil =>
      refine ⟨⟨r.level.branches, wordParts w⟩, ?_, List.reverse_cons⟩
      simpa using hword
    | cons w' words =>
      -- The bar ends the branch of this word, and the others are read from an empty one on.
      let next : Reading := { r with level := ⟨wordBranch w :: r.level.branches, []⟩ }
      have hnext : [Lexeme.bar].foldlM Reading.step
          { r with level := { r.level with parts := wordParts w } } = .ok next := rfl
      obtain ⟨level, hlevel, hbranches⟩ := ih (List.cons_ne_nil _ _) next hflags rfl
      refine ⟨level, ?_, ?_⟩
      · rw [List.map_cons, List.map_cons, List.intercalate_cons_cons, List.foldlM_append,
          List.foldlM_append, hword, ok_bind, hnext, ok_bind, ← List.map_cons, hlevel]
      · rw [hbranches]
        simp [next]

/-! ## The whole expression -/

def choiceParts (before : List Char) (words : List (List Char)) (after : List Char) : List Expr :=
  (before.map fun c => .char (.single c)) ++
    (.oneOf (words.map .ofWord) :: after.map fun c => .char (.single c))

theorem foldlM_choice (before : List Char) (hne : words ≠ []) (after : List Char) :
    ∃ depth ≤ 3, (choiceLexemes before words after).foldlM Reading.step {} =
      .ok { level := ⟨[], wordParts after ++
        ⟨some (.oneOf (words.map .ofWord)), depth⟩ :: wordParts before⟩ } := by
  let around : Level := ⟨[], wordParts before⟩
  let inside : Reading := { openGroups := [⟨around, {}, none⟩] }
  have hbefore : (letterLexemes before).foldlM Reading.step {} = .ok { level := around } := by
    rw [foldlM_word before {} rfl, List.append_nil]
  have hopen : [Lexeme.openPlain []].foldlM Reading.step { level := around } = .ok inside := rfl
  obtain ⟨level, hlevel, hbranches⟩ := foldlM_words hne inside rfl rfl
  have hclose : [Lexeme.close].foldlM Reading.step { inside with level } =
      .ok { level := around.push level.whole.expr (level.whole.depth + 1) } := rfl
  have hbranches : (level.branch :: level.branches).reverse = words.map wordBranch := hbranches
  have hexpr : level.whole.expr = .oneOf (words.map .ofWord) := by
    rw [Level.whole, hbranches, List.map_map]
    exact congrArg Expr.oneOf (List.map_congr_left fun w _ => expr_wordBranch w)
  have hdepth : level.whole.depth ≤ 2 := by
    rw [Level.whole, hbranches]
    refine listDepth_le fun d hd => ?_
    obtain ⟨b, hb, rfl⟩ := List.mem_map.1 hd
    obtain ⟨w, -, rfl⟩ := List.mem_map.1 hb
    exact depth_wordBranch_le w
  refine ⟨level.whole.depth + 1, Nat.succ_le_succ hdepth, ?_⟩
  rw [choiceLexemes, List.foldlM_append, hbefore, ok_bind, List.foldlM_append, hopen, ok_bind,
    List.foldlM_append, hlevel, ok_bind, List.foldlM_append, hclose, ok_bind, hexpr,
    foldlM_word after _ rfl]
  rfl

theorem read_choice (hbefore : ∀ c ∈ before, isOperator c = false) (hne : words ≠ [])
    (hwords : ∀ w ∈ words, ∀ c ∈ w, isOperator c = false)
    (hafter : ∀ c ∈ after, isOperator c = false) :
    let e := Expr.oneOf [.seq (choiceParts before words after)]
    Expr.read ("^(?:".toList ++ choiceText before words after ++ ")$".toList) =
      if e.anchored.isTooLarge then .error .tooLarge else .ok e.anchored := by
  obtain ⟨depth, hdepth, hread⟩ := foldlM_choice before hne after
  have hletter : ∀ w : List Char, ∀ p ∈ wordParts w, p.depth + 3 ≤ depthLimit := by
    intro w p hp
    rw [depth_of_mem_wordParts hp]
    decide
  have hshallow := read_parts (lexes_choice hbefore hwords hafter).eq hread <| by
    rw [List.forall_mem_append, List.forall_mem_cons]
    refine ⟨hletter after, ?_, hletter before⟩
    exact Nat.le_trans (Nat.add_le_add_right hdepth 3) (by decide)
  have hparts : (wordParts after ++ ⟨some (.oneOf (words.map .ofWord)), depth⟩ ::
      wordParts before).reverse.filterMap Part.expr = choiceParts before words after := by
    rw [List.reverse_append, List.reverse_cons, List.filterMap_append, List.filterMap_append,
      filterMap_wordParts, filterMap_wordParts]
    simp [choiceParts]
  have hwhole : (Level.mk [] (wordParts after ++ ⟨some (.oneOf (words.map .ofWord)), depth⟩ ::
      wordParts before)).whole.expr = .oneOf [.seq (choiceParts before words after)] := by
    rw [← hparts]
    rfl
  intro e
  rw [hwhole] at hshallow
  exact hshallow

/-! ## What it accepts -/

theorem Expr.oneOf_seq {es : List Expr} {s : CharSet} (h : .char s ∈ es) :
    oneOf [seq es] = seq es := by
  have hitems : .char s ∈ es.flatMap items := List.mem_flatMap.2 ⟨_, h, List.mem_singleton.2 rfl⟩
  refine oneOf_singleton ?_
  rw [seq]
  cases hes : es.flatMap items with
  | nil => rw [hes] at hitems; cases hitems
  | cons e rest =>
    cases rest with
    | nil =>
      rw [hes] at hitems
      obtain rfl := List.mem_singleton.1 hitems
      rfl
    | cons f rest => rfl

theorem oneOf_choiceParts (h : [] ∉ words) :
    Expr.oneOf [.seq (choiceParts before words after)] = .seq (choiceParts before words after) := by
  by_cases hletter : ∃ c, c ∈ before ++ after
  · obtain ⟨c, hc⟩ := hletter
    refine Expr.oneOf_seq (s := .single c) ?_
    rcases List.mem_append.1 hc with hc | hc
    · exact List.mem_append_left _ (List.mem_map.2 ⟨c, hc, rfl⟩)
    · exact List.mem_append_right _ (List.mem_cons_of_mem _ (List.mem_map.2 ⟨c, hc, rfl⟩))
  · -- Without letters around them the words are all there is, and may be a choice.
    obtain ⟨rfl, rfl⟩ : before = [] ∧ after = [] := by
      simpa using List.eq_nil_iff_forall_not_mem.2 fun c hc => hletter ⟨c, hc⟩
    have hparts : choiceParts [] words [] = [.oneOf (words.map .ofWord)] := rfl
    rw [hparts, Expr.seq_oneOf_words h, Expr.oneOf_oneOf_words h]

theorem accepts_choice (before after : List Char) (h : [] ∉ words) :
    Accepts (.oneOf [.seq (choiceParts before words after)]) fun v =>
      ∃ w ∈ words, v = before ++ w ++ after := by
  have hafter := Accepts.seq_nil.seq_letters after
  rw [List.append_nil] at hafter
  rw [oneOf_choiceParts h]
  refine (((accepts_oneOf h).seq_cons hafter).seq_letters before).congr fun v => ?_
  constructor
  · rintro ⟨_, ⟨w, _, hw, ⟨_, rfl, rfl⟩, rfl⟩, rfl⟩
    exact ⟨w, hw, by simp⟩
  · rintro ⟨w, hw, rfl⟩
    exact ⟨w ++ after, ⟨w, after, hw, ⟨[], rfl, (List.append_nil _).symm⟩, rfl⟩, by simp⟩

end Signpost.Regex

namespace Signpost

open Regex (choiceText)

/-- Words to choose from, with fixed text on either side. -/
structure Choice where
  before : String
  first : String
  others : List String
  after : String
  deriving DecidableEq, Repr

namespace Choice

variable {c : Choice} {pages : Pages} {setting : CategorySetting} {k : Kind}

def words (c : Choice) : List String := c.first :: c.others

/-- The rule, with the words in a group that does not capture. -/
def text (c : Choice) : String :=
  c.before ++ "(?:" ++ "|".intercalate c.words ++ ")" ++ c.after

/-- The words consist of letters, and what is around them of letters, digits, hyphens and slashes,
which are not at the ends. -/
structure IsPlain (c : Choice) : Prop where
  words : ∀ w ∈ c.words, w ≠ "" ∧ ∀ d ∈ w.toList, d.isAlpha = true
  around : ∀ d ∈ c.before.toList ++ c.after.toList, d.isAlphanum = true ∨ d = '-' ∨ d = '/'
  starts : c.before.toList.head? ≠ some '/'
  stops : c.after.toList.getLast? ≠ some '/'

/-! ## The text of the rule -/

theorem toList_text (c : Choice) :
    c.text.toList = choiceText c.before.toList (c.words.map String.toList) c.after.toList := by
  simp [text, choiceText, String.toList_intercalate]

/-- What stands behind the colon. -/
def behind (c : Choice) : List Char :=
  ['|'].intercalate (c.words.map String.toList) ++ ([')'] ++ c.after.toList)

theorem toList_text_colon (c : Choice) :
    c.text.toList = (c.before.toList ++ "(?".toList) ++ ':' :: c.behind := by
  rw [toList_text, choiceText, behind, List.append_assoc]
  rfl

theorem behind_eq (c : Choice) :
    ∃ d rest, (d = '|' ∨ d = ')') ∧ c.behind = c.first.toList ++ d :: rest := by
  unfold behind words
  cases c.others with
  | nil => exact ⟨')', c.after.toList, .inr rfl, by simp⟩
  | cons w words =>
    rw [List.map_cons, List.map_cons, List.intercalate_cons_cons, List.append_assoc,
      List.append_assoc]
    exact ⟨'|', _, .inl rfl, rfl⟩

theorem notMem_name {d : Char} (hd : d = '|' ∨ d = ')') (k : Kind) : d ∉ k.name.toList := by
  rcases hd with rfl | rfl <;> cases k <;> decide

theorem named?_behind (c : Choice) : Piece.named? c.behind = Piece.named? c.first.toList := by
  obtain ⟨d, rest, hd, hbehind⟩ := c.behind_eq
  rw [hbehind, Piece.named?_append_cons (notMem_name hd)]

theorem isOperator_of_isAlphanum {d : Char} (h : d.isAlphanum = true ∨ d = '-' ∨ d = '/') :
    Regex.isOperator d = false := by
  have hall : ∀ e ∈ "()|[?*+\x7b.^$\\".toList, ¬ (e.isAlphanum = true ∨ e = '-' ∨ e = '/') := by
    simp
  rw [← Bool.not_eq_true]
  intro hoperator
  exact hall d (List.contains_iff_mem.1 hoperator) h

namespace IsPlain

variable (h : c.IsPlain)
include h

theorem notMem_words : [] ∉ c.words.map String.toList := by
  intro hmem
  obtain ⟨w, hw, hnil⟩ := List.mem_map.1 hmem
  exact (h.words w hw).1 (String.toList_eq_nil_iff.1 hnil)

theorem before_letters : ∀ d ∈ c.before.toList, d ≠ ':' ∧ Regex.isOperator d = false := by
  intro d hd
  have hplain := h.around d (List.mem_append_left _ hd)
  refine ⟨?_, isOperator_of_isAlphanum hplain⟩
  rintro rfl
  simp at hplain

theorem after_letters : ∀ d ∈ c.after.toList, d ≠ ':' ∧ Regex.isOperator d = false := by
  intro d hd
  have hplain := h.around d (List.mem_append_right _ hd)
  refine ⟨?_, isOperator_of_isAlphanum hplain⟩
  rintro rfl
  simp at hplain

theorem word_letters :
    ∀ w ∈ c.words.map String.toList, ∀ d ∈ w, d ≠ ':' ∧ Regex.isOperator d = false := by
  intro _ hmem d hd
  obtain ⟨w, hw, rfl⟩ := List.mem_map.1 hmem
  have hplain : d.isAlpha = true := (h.words w hw).2 d hd
  refine ⟨?_, isOperator_of_isAlphanum (.inl (by simp [Char.isAlphanum, hplain]))⟩
  rintro rfl
  cases hplain

theorem colon_notMem_behind : ':' ∉ c.behind := by
  have hwords : ∀ words : List (List Char), (∀ w ∈ words, ':' ∉ w) →
      ':' ∉ ['|'].intercalate words := by
    intro words
    induction words with
    | nil => exact fun _ => List.not_mem_nil
    | cons w words ih =>
      intro hall
      obtain ⟨hw, hall⟩ := List.forall_mem_cons.1 hall
      cases words with
      | nil => simpa using hw
      | cons w' words =>
        rw [List.intercalate_cons_cons]
        simp [hw, ih hall]
  have hcolon := hwords (c.words.map String.toList) fun w hw hmem =>
    (h.word_letters w hw ':' hmem).1 rfl
  have hafter : ':' ∉ c.after.toList := fun hmem => (h.after_letters ':' hmem).1 rfl
  simp [behind, hcolon, hafter]

theorem colon_notMem_before : ':' ∉ c.before.toList ++ "(?".toList := by
  have hbefore : ':' ∉ c.before.toList := fun hmem => (h.before_letters ':' hmem).1 rfl
  simp [hbefore]

theorem inside_text : (∀ d ∈ c.text.toList.head?, Text.isSlash d = false) ∧
    ∀ d ∈ c.text.toList.getLast?, Text.isSlash d = false := by
  have hhead : c.text.toList.head? = some (c.before.toList.head?.getD '(') := by
    rw [toList_text, choiceText]
    cases c.before.toList <;> rfl
  have hlast : c.text.toList.getLast? = some (c.after.toList.getLast?.getD ')') := by
    simp [toList_text, choiceText, List.getLast?_append, List.getLast?_cons]
  have hgetD : ∀ {o : Option Char} {e : Char}, o ≠ some '/' → e ≠ '/' →
      Text.isSlash (o.getD e) = false := by
    intro o e ho he
    cases o with
    | none => simpa [Text.isSlash] using he
    | some d => simpa [Text.isSlash] using ho
  rw [hhead, hlast]
  constructor
  · rintro _ ⟨⟩
    exact hgetD h.starts (by decide)
  · rintro _ ⟨⟩
    exact hgetD h.stops (by decide)

theorem source_text (pages : Pages) :
    pages.resolve (Text.trimEnd Text.isSlash c.text.toList) = c.text.toList := by
  rw [Text.trimEnd_eq_self h.inside_text.2, toList_text_colon]
  exact Pages.resolve_of_single_colon h.colon_notMem_before h.colon_notMem_behind

/-! ## Words that begin with no name -/

theorem unnamed (hfirst : ∀ k : Kind, ¬ k.name.toList <+: c.first.toList) (k : Kind) :
    ¬ k.IsNamedIn c.text.toList := by
  have hnone : Piece.named? c.behind = none := by
    rw [named?_behind, Piece.named?_eq_none_iff]
    exact hfirst
  rw [toList_text_colon, Kind.isNamedIn_append_colon h.colon_notMem_before h.colon_notMem_behind]
  exact Piece.named?_eq_none_iff.1 hnone k

theorem bodyText_text (hfirst : ∀ k : Kind, ¬ k.name.toList <+: c.first.toList) (pages : Pages)
    (setting : CategorySetting) : Pattern.bodyText c.text pages setting = c.text.toList := by
  have hcolon : c.text.toList.contains ':' = true := by simp [toList_text_colon]
  rw [Pattern.bodyText, h.source_text, Pattern.body, hcolon, Bool.true_or, if_pos rfl]
  simp only [(Piece.expandRule_of_unnamed setting (h.unnamed hfirst)).1]
  exact Text.trim_eq_self h.inside_text.1 h.inside_text.2

theorem compile_unnamed (hfirst : ∀ k : Kind, ¬ k.name.toList <+: c.first.toList) (pages : Pages)
    (setting : CategorySetting) :
    ∃ p : Pattern,
      Pattern.compile c.text pages setting =
        (if p.regex.expr.isTooLarge then .error .tooLarge else .ok p) ∧
      p.Untyped ∧
      ∀ path : String, p.regex.isMatch path = true ↔
        ∃ w ∈ c.words, path = c.before ++ w ++ c.after := by
  have hne : c.words.map String.toList ≠ [] := List.cons_ne_nil _ _
  have hread := Regex.read_choice (fun d hd => (h.before_letters d hd).2) hne
    (fun w hw d hd => (h.word_letters w hw d hd).2) fun d hd => (h.after_letters d hd).2
  rw [← toList_text, ← h.bodyText_text hfirst pages setting, ← Pattern.toList_anchor] at hread
  obtain ⟨p, hp, hexpr, hkinds, -⟩ := Pattern.compile_of_read hread
  refine ⟨p, hp, Pattern.untyped_of_kinds ?_, fun path => ?_⟩
  · rw [hkinds, Pattern.kinds_body, h.source_text]
    exact (Piece.expandRule_of_unnamed setting (h.unnamed hfirst)).2
  · rw [Regex.isMatch_anchored hexpr (Regex.accepts_choice _ _ h.notMem_words)]
    constructor
    · rintro ⟨_, hmem, hpath⟩
      obtain ⟨w, hw, rfl⟩ := List.mem_map.1 hmem
      exact ⟨w, hw, String.toList_inj.1 (by simpa using hpath)⟩
    · rintro ⟨w, hw, rfl⟩
      exact ⟨w.toList, List.mem_map.2 ⟨w, hw, rfl⟩, by simp⟩

/-! ## Words that begin with a name -/

theorem cut_named (hk : Piece.named? c.first.toList = some k) :
    ∃ rest, Piece.cut c.text.toList = c.before.toList.map .char ++
      (.paren false :: .char '?' :: .wildcard false k :: Piece.cut rest) := by
  have hnamed : Piece.named? c.behind = some k := by rw [named?_behind, hk]
  obtain ⟨rest, hrest⟩ := Piece.name_prefix_of_named? hnamed
  have hwild : Piece.first ':' (k.name.toList ++ rest) = .wildcard false k := by
    refine Piece.first_wildcard ?_
    rw [hrest, Piece.wildcard?, hnamed]
    rfl
  have hcut : Piece.cut (':' :: c.behind) = .wildcard false k :: Piece.cut rest := by
    rw [← hrest]
    exact Piece.cutFrom_source rfl hwild
  refine ⟨rest, ?_⟩
  rw [toList_text_colon, List.append_assoc, Piece.cut,
    Piece.cutFrom_letters h.before_letters (by simp), ← hcut]
  rfl

theorem compile_named (hk : Piece.named? c.first.toList = some k) (hcategory : k ≠ .category)
    (pages : Pages) (setting : CategorySetting) :
    Pattern.compile c.text pages setting = .error .badFlag := by
  -- No flag is a parenthesis.
  obtain ⟨rest, hcut⟩ := h.cut_named hk
  obtain ⟨inner, hcapture⟩ : ∃ inner, Piece.capture setting k = '(' :: inner := by
    cases k <;> first | exact ⟨_, rfl⟩ | exact absurd rfl hcategory
  have hexpanded : (expandRule setting c.text.toList).1 = (c.before.toList ++ ['(', '?']) ++
      '(' :: (inner ++ (expandRule setting rest).1) := by
    rw [expandRule, hcut, List.flatMap_append, Plain.expansion_letters, List.append_assoc]
    simp [Piece.expansion, Piece.source, hcapture, expandRule]
  have hcolon : c.text.toList.contains ':' = true := by simp [toList_text_colon]
  obtain ⟨tail, hbody⟩ : ∃ tail, Pattern.bodyText c.text pages setting =
      c.before.toList ++ '(' :: '?' :: '(' :: tail := by
    have hparen : Text.isSlash '(' = false := by decide
    have hstart : ∀ d ∈ c.before.toList.head?, Text.isSlash d = false := by
      intro d hd
      have hslash : d ≠ '/' := fun hslash => h.starts (hslash ▸ hd)
      simpa [Text.isSlash] using hslash
    refine ⟨Text.trimEnd Text.isSlash (inner ++ (expandRule setting rest).1), ?_⟩
    rw [Pattern.bodyText, h.source_text, Pattern.body, hcolon, Bool.true_or, if_pos rfl]
    simp only [hexpanded, Text.trim, Text.trimStart_append_cons hparen,
      Text.trimStart_eq_self hstart, Text.trimEnd_append_cons hparen]
    simp
  have hlexemes : Regex.lexemes 0 (Pattern.anchor (Pattern.bodyText c.text pages setting)).toList =
      .error .badFlag := by
    have hopen : ∀ cs, Regex.lexemes 0 ('(' :: '?' :: '(' :: cs) = .error .badFlag := fun _ => rfl
    rw [Pattern.toList_anchor, hbody, List.append_assoc, Regex.lexemes_anchor, List.append_assoc,
      Regex.lexemes_letters fun d hd => (h.before_letters d hd).2, List.cons_append,
      List.cons_append, List.cons_append, hopen]
    rfl
  rw [Pattern.compile_eq, Regex.Expr.read, hlexemes]
  rfl

theorem kind?_named {p : Pattern} (hk : Piece.named? c.first.toList = some k)
    (hp : Pattern.compile c.text pages setting = .ok p) : p.kind? 1 = some k := by
  obtain ⟨rest, hcut⟩ := h.cut_named hk
  have hkinds : p.kinds = some k :: (Piece.cut rest).flatMap Piece.kinds := by
    rw [Pattern.kinds_of_compile hp, Pattern.source_of_compile hp, h.source_text, hcut,
      List.flatMap_append, List.flatMap_map]
    simp [Piece.kinds]
  rw [Pattern.kind?, hkinds]
  rfl

end IsPlain

/-- A choice between words is compiled, unless it is too large, to a pattern without kinds that
matches each word with the text around it, if the first word begins with no name of a wildcard. If
it does, the rule is refused, or a capture gets that kind where the name is that of categories. -/
theorem compile_choice (h : c.IsPlain) (pages : Pages) (setting : CategorySetting) :
    ((∀ k : Kind, ¬ k.name.toList <+: c.first.toList) →
      ∃ p : Pattern,
        Pattern.compile c.text pages setting =
          (if p.regex.expr.isTooLarge then .error .tooLarge else .ok p) ∧
        p.Untyped ∧
        ∀ path : String, p.regex.isMatch path = true ↔
          ∃ w ∈ c.words, path = c.before ++ w ++ c.after) ∧
    ∀ k, Piece.named? c.first.toList = some k →
      (k ≠ .category → Pattern.compile c.text pages setting = .error .badFlag) ∧
      ∀ p, Pattern.compile c.text pages setting = .ok p → p.kind? 1 = some k :=
  ⟨fun hfirst => h.compile_unnamed hfirst pages setting, fun _ hk =>
    ⟨fun hcategory => h.compile_named hk hcategory pages setting, fun _ hp => h.kind?_named hk hp⟩⟩

theorem compile_choice_order :
    let c : Choice := ⟨"docs/", "news", ["any", "all"], "-feed"⟩
    let d : Choice := ⟨"docs/", "any", ["news", "all"], "-feed"⟩
    (c.IsPlain ∧ (∀ k : Kind, ¬ k.name.toList <+: c.first.toList) ∧
      ∃ p, Pattern.compile c.text .empty {} = .ok p ∧ p.Untyped ∧
        ∀ path : String, p.regex.isMatch path = true ↔
          ∃ w ∈ c.words, path = c.before ++ w ++ c.after) ∧
    d.IsPlain ∧ Piece.named? d.first.toList = some .any ∧
      Pattern.compile d.text .empty {} = .error .badFlag := by
  intro c d
  have hc : c.IsPlain := ⟨by simp [c, words], by simp [c], by decide, by decide⟩
  have hd : d.IsPlain := ⟨by simp [d, words], by simp [d], by decide, by decide⟩
  have hfirst : ∀ k : Kind, ¬ k.name.toList <+: c.first.toList := by
    intro k
    cases k <;> decide
  have hok : (Pattern.compile c.text .empty {}).isOk = true := by decide +kernel
  obtain ⟨p, hp, huntyped, hmatch⟩ := (compile_choice hc .empty {}).1 hfirst
  have hname : Piece.named? d.first.toList = some .any := by decide
  exact ⟨⟨hc, hfirst, p, Pattern.compile_of_isOk hp hok, huntyped, hmatch⟩, hd, hname,
    ((compile_choice hd .empty {}).2 .any hname).1 (by decide)⟩

/-- A choice between two words is refused for what the first begins with. -/
theorem choice_refused :
    IsPlain ⟨"", "any", ["news"], ""⟩ ∧
      Pattern.compile "(?:any|news)" .empty {} = .error .badFlag :=
  ⟨⟨by simp [words], by simp, by decide, by decide⟩, by decide +kernel⟩

end Choice

end Signpost
