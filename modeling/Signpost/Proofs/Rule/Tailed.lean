import Mathlib.Data.List.Basic
import Signpost.Proofs.Rule.Plain

/-!
# Rules with a tail

A rule with a tail begins with fixed items; from its first wildcard on it has wildcards only. Any of
these may take the slash before it along, and the word for categories may be any text. Where such a
rule begins with this word, the slashes at its front fall away when the expression is trimmed.
-/

namespace Signpost

open Plain (Item Lexes StartsInside StopsInside)
open Regex (Atom Layout)

namespace Kind

/-- The text before what a wildcard captures, without slashes at the start of a rule. -/
def lead (setting : CategorySetting) (atStart : Bool) (kind : Kind) : List Char :=
  let text := beforeSlashes (kind.before setting)
  if atStart then Text.trimStart Text.isSlash text else text

def layout (setting : CategorySetting) (atStart : Bool) (kind : Kind) : Layout :=
  (kind.lead setting atStart).map .letter ++ [.field (kind.field setting.byName)]

/-- The slash before a wildcard, unless the wildcard takes it along. -/
def slash (kind : Kind) : List Char := if Piece.takesSlash kind then [] else ['/']

/-- A wildcard behind something else. -/
def layoutBehind (setting : CategorySetting) (kind : Kind) : Layout :=
  kind.slash.map .letter ++ kind.layout setting false

end Kind

/-- Fixed items and behind them at least one wildcard, with slashes between them. -/
structure Tailed where
  fixed : List Item
  first : Kind
  others : List Kind
  deriving DecidableEq, Repr

def Plain.Item.isFixed : Item → Bool
  | wildcard _ => false
  | _ => true

namespace Tailed

def kinds (r : Tailed) : List Kind := r.first :: r.others

def items (r : Tailed) : List Item := r.fixed ++ r.kinds.map .wildcard

def text (r : Tailed) : List Char := ['/'].intercalate (r.items.map Item.text)

/-- A wildcard that takes a slash along does not stand at the start. -/
structure IsValid (pages : Pages) (r : Tailed) : Prop where
  fixed : ∀ item ∈ r.fixed, item.isFixed = true ∧ item.isValid pages = true
  first : r.fixed = [] → r.first.isSegment = true

def source (pages : Pages) (r : Tailed) : List Char :=
  ['/'].intercalate (r.items.map (Item.source pages))

def layout (setting : CategorySetting) (pages : Pages) (r : Tailed) : Layout :=
  match r.fixed with
  | [] => r.first.layout setting true ++ r.others.flatMap (Kind.layoutBehind setting)
  | item :: items =>
    item.layout setting pages ++
      ((items.flatMap fun item => .letter '/' :: item.layout setting pages) ++
        r.kinds.flatMap (Kind.layoutBehind setting))

end Tailed

variable {pages : Pages} {setting : CategorySetting} {r : Tailed} {kind : Kind}

/-! ## Wildcards -/

theorem Kind.takesSlash_eq (kind : Kind) : Piece.takesSlash kind = !kind.isSegment := by
  cases kind <;> rfl

theorem Regex.trimStart_escape (cs rest : List Char) (hrest : StartsInside rest) :
    Text.trimStart Text.isSlash (escape cs ++ rest) =
      escape (Text.trimStart Text.isSlash cs) ++ rest := by
  -- Slashes are not escaped, so they can be trimmed before or after the rest is.
  induction cs with
  | nil => exact Plain.trimStart_of_startsInside hrest
  | cons c cs ih =>
    by_cases hc : c = '/'
    · subst hc
      exact ih
    · have hstay : Text.trimStart Text.isSlash (c :: cs) = c :: cs :=
        Plain.trimStart_of_startsInside ⟨c, cs, rfl, hc⟩
      rw [hstay]
      exact Plain.trimStart_of_startsInside ((Plain.startsInside_escape_cons hc cs).append rest)

theorem capture_eq_escape (setting : CategorySetting) (kind : Kind) :
    Piece.capture setting kind =
      Regex.escape (kind.lead setting false) ++ (kind.field setting.byName).text := by
  rw [Plain.capture_eq]
  congr 1
  unfold Kind.lead
  cases kind with
  | category => simp [Kind.before, beforeSlashes, Regex.escape, Regex.isMeta]
  | _ => rfl

theorem trimStart_capture (setting : CategorySetting) (kind : Kind) (rest : List Char) :
    Text.trimStart Text.isSlash (Piece.capture setting kind ++ rest) =
      Regex.escape (kind.lead setting true) ++ (kind.field setting.byName).text ++ rest := by
  rw [capture_eq_escape, List.append_assoc,
    Regex.trimStart_escape _ _ ((Plain.text_inside _).1.append rest), List.append_assoc]
  rfl

theorem lexes_lead (setting : CategorySetting) (atStart : Bool) (kind : Kind) :
    Lexes (Regex.escape (kind.lead setting atStart) ++ (kind.field setting.byName).text)
      ((kind.layout setting atStart).flatMap Atom.lexemes) := by
  rw [Kind.layout, List.flatMap_append]
  exact (Plain.lexes_escape _).append (Plain.lexes_field (Plain.plain_field _))

theorem lexes_behind (setting : CategorySetting) (kind : Kind) :
    Lexes (kind.slash ++ Piece.capture setting kind)
      ((kind.layoutBehind setting).flatMap Atom.lexemes) := by
  rw [Kind.layoutBehind, List.flatMap_append, capture_eq_escape]
  refine .append (Plain.lexes_letters fun c hc => ?_) (lexes_lead setting false kind)
  unfold Kind.slash at hc
  split at hc
  · cases hc
  · rw [List.mem_singleton.1 hc]
    rfl

/-! ## Reading a row of items -/

theorem endsItem_behindSlashes (segments : List (List Char)) :
    EndsItem (behindSlashes segments) := by
  cases segments with
  | nil => exact .inl rfl
  | cons s segments => exact .inr ⟨_, rfl⟩

theorem read_behindSlashes {β : Type} (scan : List Char → List β) {form : Item → List Char}
    {behind : Item → List β} {items : List Item}
    (hitem : ∀ item ∈ items, ∀ rest, EndsItem rest →
      scan ('/' :: (form item ++ rest)) = behind item ++ scan rest)
    (hnil : scan [] = []) :
    scan (behindSlashes (items.map form)) = items.flatMap behind := by
  induction items with
  | nil => exact hnil
  | cons item items ih =>
    obtain ⟨hhead, htail⟩ := List.forall_mem_cons.1 hitem
    have hread := hhead _ (endsItem_behindSlashes (items.map form))
    rw [ih htail] at hread
    exact hread

/-- The items of a rule with a tail are those of plain rules, and wildcards. -/
def Plain.Item.isKnown (pages : Pages) : Item → Bool
  | wildcard _ => true
  | item => item.isValid pages

namespace Tailed

theorem known_of_mem (h : r.IsValid pages) {item : Item} (hitem : item ∈ r.items) :
    item.isKnown pages = true := by
  rcases List.mem_append.1 hitem with hfixed | hkind
  · cases item with
    | wildcard kind => rfl
    | _ => exact (h.fixed _ hfixed).2
  · obtain ⟨kind, -, rfl⟩ := List.mem_map.1 hkind
    rfl

theorem items_eq_cons (h : r.IsValid pages) :
    ∃ item items, r.items = item :: items ∧ item.isValid pages = true := by
  obtain ⟨fixed, first, others⟩ := r
  cases fixed with
  | nil => exact ⟨_, _, rfl, h.first rfl⟩
  | cons item fixed => exact ⟨item, _, rfl, (h.fixed item List.mem_cons_self).2⟩

theorem resolveFrom_known {item : Item} {rest : List Char} (h : item.isKnown pages = true)
    (hrest : EndsItem rest) :
    Pages.resolveFrom pages 0 (item.text ++ rest) =
      item.source pages ++ Pages.resolveFrom pages 0 rest := by
  cases item with
  | wildcard kind => exact Plain.resolveFrom_wildcard pages kind rest
  | _ => exact Plain.resolveFrom_item h hrest

theorem resolve_text (h : r.IsValid pages) : pages.resolve r.text = r.source pages := by
  obtain ⟨item, items, hitems, hitem⟩ := items_eq_cons h
  have hothers : Pages.resolveFrom pages 0 (behindSlashes (items.map Item.text)) =
      behindSlashes (items.map (Item.source pages)) := by
    have hform : behindSlashes (items.map (Item.source pages)) =
        items.flatMap fun item => '/' :: item.source pages := List.flatMap_map ..
    rw [hform]
    refine read_behindSlashes (Pages.resolveFrom pages 0) (fun item hmem rest hrest => ?_) rfl
    have hknown := known_of_mem h (hitems ▸ List.mem_cons_of_mem _ hmem)
    rw [Pages.resolveFrom_none (Pages.atFront?_other (by decide) (by decide) _),
      resolveFrom_known hknown hrest]
    rfl
  rw [text, source, hitems, List.map_cons, List.map_cons, intercalate_cons, intercalate_cons,
    Pages.resolve, Plain.resolveFrom_item hitem (endsItem_behindSlashes _), hothers]

/-! ## The expansion -/

/-- What is written for an item behind another one. -/
def bodyBehind (setting : CategorySetting) (pages : Pages) : Item → List Char
  | .wildcard kind => kind.slash ++ Piece.capture setting kind
  | item => '/' :: item.body setting pages

theorem body_wildcard (setting : CategorySetting) (pages : Pages) (kind : Kind) :
    (Item.wildcard kind).body setting pages = Piece.capture setting kind :=
  List.flatMap_singleton ..

theorem expand_behind {item : Item} {rest : List Char} (h : item.isKnown pages = true)
    (hrest : EndsItem rest) :
    (Piece.cut ('/' :: (item.source pages ++ rest))).flatMap (Piece.expansion setting) =
      bodyBehind setting pages item ++
        (Piece.cut rest).flatMap (Piece.expansion setting) := by
  have hplain : item.isValid pages = true →
      (Piece.cut ('/' :: (item.source pages ++ rest))).flatMap (Piece.expansion setting) =
        '/' :: item.body setting pages ++
          (Piece.cut rest).flatMap (Piece.expansion setting) := by
    intro hvalid
    rw [Piece.cut, Plain.cutFrom_slash hvalid hrest, Plain.cutFrom_item hvalid hrest,
      List.flatMap_cons, List.flatMap_append]
    rfl
  cases item with
  | wildcard kind =>
    cases hkind : kind.isSegment with
    | true =>
      rw [hplain hkind, body_wildcard, bodyBehind, Kind.slash, Kind.takesSlash_eq, hkind]
      rfl
    | false =>
      have htakes : Piece.takesSlash kind = true := by rw [Kind.takesSlash_eq, hkind]; rfl
      have hfirst : Piece.first '/' (':' :: (kind.name.toList ++ rest)) =
          .wildcard true kind := by
        unfold Piece.first
        rw [Piece.wildcard?, Piece.named?_name kind hrest, Option.filter_some, if_pos htakes]
        rfl
      have hcut : Piece.cut ('/' :: ((Item.wildcard kind).source pages ++ rest)) =
          .wildcard true kind :: Piece.cut rest := Piece.cutFrom_source rfl hfirst
      rw [hcut, bodyBehind, Kind.slash, if_pos htakes]
      rfl
  | _ => exact hplain h

theorem expand_source (setting : CategorySetting) (h : r.IsValid pages) :
    ∃ item items, r.items = item :: items ∧
      (expandRule setting (r.source pages)).1 =
        item.body setting pages ++ items.flatMap (bodyBehind setting pages) := by
  obtain ⟨item, items, hitems, hitem⟩ := items_eq_cons h
  refine ⟨item, items, hitems, ?_⟩
  have hothers : (Piece.cut (behindSlashes (items.map (Item.source pages)))).flatMap
      (Piece.expansion setting) = items.flatMap (bodyBehind setting pages) :=
    read_behindSlashes (fun cs => (Piece.cut cs).flatMap (Piece.expansion setting))
      (fun item hmem rest hrest =>
        expand_behind (known_of_mem h (hitems ▸ List.mem_cons_of_mem _ hmem)) hrest) rfl
  rw [expandRule, source, hitems, List.map_cons, intercalate_cons, Piece.cut,
    Plain.cutFrom_item hitem (endsItem_behindSlashes _), List.flatMap_append]
  exact congrArg (item.body setting pages ++ ·) hothers

/-! ## Between the anchors -/

theorem bodyBehind_wildcards (setting : CategorySetting) (pages : Pages) (kinds : List Kind) :
    (kinds.map Item.wildcard).flatMap (bodyBehind setting pages) =
      kinds.flatMap fun kind => kind.slash ++ Piece.capture setting kind := by
  rw [List.flatMap_map]
  rfl

theorem lexes_kinds (setting : CategorySetting) (kinds : List Kind) :
    Lexes (kinds.flatMap fun kind => kind.slash ++ Piece.capture setting kind)
      ((kinds.flatMap (Kind.layoutBehind setting)).flatMap Atom.lexemes) := by
  rw [List.flatMap_assoc]
  exact .flatMap fun kind _ => lexes_behind setting kind

theorem stopsInside_kinds (setting : CategorySetting) (kind : Kind) (kinds : List Kind) :
    StopsInside ((kind :: kinds).flatMap fun kind => kind.slash ++ Piece.capture setting kind) := by
  induction kinds generalizing kind with
  | nil =>
    rw [List.flatMap_singleton, capture_eq_escape]
    exact ((Plain.text_inside _).2.append _).append _
  | cons next kinds ih => exact (ih next).append _

theorem startsInside_body {item : Item} (hfixed : item.isFixed = true)
    (h : item.isValid pages = true) : StartsInside (item.body setting pages) := by
  cases item with
  | literal cs =>
    have hbody : (Item.literal cs).body setting pages = cs := Plain.expansion_letters setting cs
    rw [hbody]
    exact (Plain.literal_inside h).1
  | wildcard kind => cases hfixed
  | page digits => exact ⟨'(', _, rfl, by decide⟩

theorem lexes_trimmed (setting : CategorySetting) (h : r.IsValid pages) :
    Lexes (Text.trim Text.isSlash (expandRule setting (r.source pages)).1)
      ((r.layout setting pages).flatMap Atom.lexemes) := by
  obtain ⟨item, items, hitems, hexpand⟩ := expand_source setting h
  obtain ⟨fixed, first, others⟩ := r
  rw [hexpand]
  cases fixed with
  | nil =>
    obtain ⟨rfl, rfl⟩ := List.cons.inj hitems
    have hstops : StopsInside (Regex.escape (first.lead setting true) ++
        (first.field setting.byName).text ++
          others.flatMap fun kind => kind.slash ++ Piece.capture setting kind) := by
      cases others with
      | nil =>
        rw [List.flatMap_nil, List.append_nil]
        exact (Plain.text_inside _).2.append _
      | cons next others => exact (stopsInside_kinds setting next others).append _
    rw [body_wildcard, bodyBehind_wildcards, Text.trim, trimStart_capture,
      Plain.trimEnd_of_stopsInside hstops, layout, List.flatMap_append]
    exact (lexes_lead setting true first).append (lexes_kinds setting others)
  | cons head fixed =>
    obtain rfl : head = item := (List.cons.inj hitems).1
    obtain rfl : items = fixed ++ (first :: others).map .wildcard := (List.cons.inj hitems).2.symm
    obtain ⟨⟨hfixed, hvalid⟩, hothers⟩ := List.forall_mem_cons.1 h.fixed
    have hrow : fixed.flatMap (bodyBehind setting pages) =
        fixed.flatMap fun item => '/' :: item.body setting pages := by
      refine List.flatMap_congr fun item hitem => ?_
      have hitemFixed := (hothers item hitem).1
      cases item with
      | wildcard kind => cases hitemFixed
      | _ => rfl
    have hstops := stopsInside_kinds setting first others
    rw [List.flatMap_append, hrow, bodyBehind_wildcards,
      Plain.trim_of_inside ((startsInside_body hfixed hvalid).append _)
        ((hstops.append _).append _), layout, List.flatMap_append, List.flatMap_append]
    refine (Plain.lexes_body setting hvalid).append (.append ?_ (lexes_kinds setting _))
    rw [List.flatMap_assoc]
    refine .flatMap fun item hitem => ?_
    rw [List.flatMap_cons]
    exact Plain.lexes_slash.append (Plain.lexes_body setting (hothers item hitem).2)

/-! ## Compiling -/

theorem source_eq (pages : Pages) (r : Tailed) :
    ∃ rest, r.source pages = beforeSlashes (r.fixed.map (Item.source pages)) ++ ':' :: rest := by
  refine ⟨r.first.name.toList ++
    behindSlashes ((r.others.map Item.wildcard).map (Item.source pages)), ?_⟩
  rw [source, items, kinds, List.map_append, List.map_cons, List.map_cons,
    intercalate_append_of_ne_nil (List.cons_ne_nil _ _), intercalate_cons]
  rfl

theorem stopsInside_text (r : Tailed) : StopsInside r.text := by
  have hlast : ∃ before kind, r.items = before ++ [Item.wildcard kind] := by
    have hkinds := List.dropLast_concat_getLast (List.cons_ne_nil r.first r.others)
    exact ⟨_, _, by rw [items, kinds, ← hkinds, List.map_append, ← List.append_assoc]; rfl⟩
  obtain ⟨before, kind, hitems⟩ := hlast
  have hname : '/' ∉ ':' :: kind.name.toList := by cases kind <;> decide
  rw [text, hitems, List.map_append, List.map_singleton,
    intercalate_append_of_ne_nil (List.cons_ne_nil _ _), List.intercalate_singleton]
  refine StopsInside.append ?_ _
  exact Plain.stopsInside_of_notMem (List.cons_ne_nil _ _) hname

theorem compile_layout (setting : CategorySetting) (h : r.IsValid pages) :
    ∃ p : Pattern,
      Pattern.compile (String.ofList r.text) pages setting =
        (if p.regex.expr.isTooLarge then .error .tooLarge else .ok p) ∧
      p.regex.expr = (Regex.Expr.ofItems (Layout.exprs 0 (r.layout setting pages))).anchored ∧
      p.source.toList = r.source pages := by
  have hsource : pages.resolve (Text.trimEnd Text.isSlash (String.ofList r.text).toList) =
      r.source pages := by
    rw [String.toList_ofList, Plain.trimEnd_of_stopsInside (stopsInside_text r), resolve_text h]
  have hbody : Pattern.bodyText (String.ofList r.text) pages setting =
      Text.trim Text.isSlash (expandRule setting (r.source pages)).1 := by
    have hpattern : ((r.source pages).contains ':' || (r.source pages).contains '(') = true := by
      obtain ⟨rest, hrest⟩ := source_eq pages r
      simp [hrest]
    rw [Pattern.bodyText, hsource, Pattern.body, if_pos hpattern]
  have hread := Regex.read_layout (lexes_trimmed setting h).eq
  rw [← hbody, ← Pattern.toList_anchor] at hread
  obtain ⟨p, hp, hexpr, -, hpsource⟩ := Pattern.compile_of_read hread
  exact ⟨p, hp, hexpr, hpsource.trans hsource⟩

end Tailed

end Signpost
