import Signpost.Proofs.Rule.Blocks
import Signpost.Proofs.Rule.Tailed
import Signpost.Proofs.Text

/-!
# The remainder of a path

What is left of a path behind the fixed start of a rule is found from the text of the rule, and not
from its match. For a rule with a tail it is what the wildcards take: the segments from the first
wildcard on.
-/

namespace Signpost

open Plain (Item StopsInside)
open Regex (Layout)

/-! ## What the items of a rule take -/

namespace Plain.Item

/-- What a fixed item matches. -/
def path (pages : Pages) : Item → List Char
  | literal cs => cs
  | wildcard _ => []
  | page digits => uri pages digits

/-- What a fixed item captures. -/
def uris (pages : Pages) : Item → List (List Char)
  | page digits => [uri pages digits]
  | _ => []

end Plain.Item

/-- The block of segments that a wildcard takes, and the word that it captures of them. -/
def Kind.Takes (setting : CategorySetting) (atStart : Bool) (kind : Kind)
    (block : List (List Char)) (word : List Char) : Prop :=
  match kind with
  | .pagination =>
    word = behindSlashes block ∧ (block = [] ∨ ∃ ds, IsDigits ds ∧ block = ['P' :: ds])
  | .all => word = behindSlashes block ∧ '\n' ∉ word
  | kind =>
    kind.Fits setting.byName word ∧ '/' ∉ word ∧
      block = (kind.lead setting atStart ++ word).splitOn '/'

/-- The segments are cut into the blocks of the wildcards in order. -/
def Kind.TakesRow (setting : CategorySetting) : (atStart : Bool) → List Kind →
    (segments : List (List Char)) → (words : List (List Char)) → Prop
  | _, [], segments, words => segments = [] ∧ words = []
  | atStart, kind :: kinds, segments, words =>
    ∃ block rest word others, kind.Takes setting atStart block word ∧
      TakesRow setting false kinds rest others ∧ segments = block ++ rest ∧ words = word :: others

namespace Tailed

/-- The segments that the fixed items match. -/
def lead (pages : Pages) (r : Tailed) : List (List Char) :=
  r.fixed.flatMap fun item => (item.path pages).splitOn '/'

/-- What the fixed items capture. -/
def uris (pages : Pages) (r : Tailed) : List (List Char) := r.fixed.flatMap (Item.uris pages)

/-- What becomes of the path of a request that the rule matches. -/
structure Divides (setting : CategorySetting) (pages : Pages) (r : Tailed) (p : Pattern)
    (path : String) (tail words : List (List Char)) : Prop where
  captures : p.regex.captures? path =
    some ((r.uris pages ++ words).map fun word => some (String.ofList word))
  segments : path.toList.splitOn '/' = r.lead pages ++ tail
  /-- The segments behind the fixed ones are those of the wildcards. -/
  takes : Kind.TakesRow setting r.fixed.isEmpty r.kinds tail words
  remainder : p.remainder? path =
    (some (Text.dropLeadingSlashes (String.ofList (['/'].intercalate tail)))).filter (!·.isEmpty)

end Tailed

variable {pages : Pages} {setting : CategorySetting} {r : Tailed} {kind : Kind} {kinds : List Kind}
  {items : List Item} {w : List Char} {words : List (List Char)}

/-! ## Cutting the path -/

theorem Plain.cut_fixed {item : Item} (hfixed : item.isFixed = true) :
    Layout.Cut (item.layout setting pages) w words ↔
      w = item.path pages ∧ words = item.uris pages := by
  cases item with
  | literal cs => exact cut_letters
  | wildcard kind => cases hfixed
  | page digits =>
    refine cut_field.trans (and_congr_right fun hw => ?_)
    obtain rfl : w = Item.uri pages digits := hw
    exact Iff.rfl

theorem Plain.cut_fixedRow (hfixed : ∀ item ∈ items, item.isFixed = true) :
    Layout.Cut (items.flatMap fun item => .letter '/' :: item.layout setting pages) w words ↔
      w = behindSlashes (items.flatMap fun item => (item.path pages).splitOn '/') ∧
        words = items.flatMap (Item.uris pages) := by
  induction items generalizing w words with
  | nil => exact Iff.rfl
  | cons item items ih =>
    obtain ⟨hitem, hitems⟩ := List.forall_mem_cons.1 hfixed
    rw [List.flatMap_cons, List.flatMap_cons, behindSlashes_append, behindSlashes_splitOn]
    constructor
    · rintro ⟨rest, rfl, hcut⟩
      obtain ⟨u, v, us, vs, hu, hv, rfl, rfl⟩ := cut_append.1 hcut
      obtain ⟨rfl, rfl⟩ := (cut_fixed hitem).1 hu
      obtain ⟨rfl, rfl⟩ := (ih hitems).1 hv
      exact ⟨rfl, rfl⟩
    · rintro ⟨rfl, rfl⟩
      exact ⟨_, rfl, cut_append.2 ⟨_, _, _, _, (cut_fixed hitem).2 ⟨rfl, rfl⟩,
        (ih hitems).2 ⟨rfl, rfl⟩, rfl, rfl⟩⟩

theorem Plain.cut_fixedItems {item : Item} (hfixed : ∀ i ∈ item :: items, i.isFixed = true) :
    Layout.Cut (item.layout setting pages ++
        items.flatMap fun item => .letter '/' :: item.layout setting pages) w words ↔
      w = item.path pages ++ behindSlashes (items.flatMap fun item => (item.path pages).splitOn '/') ∧
        words = (item :: items).flatMap (Item.uris pages) := by
  obtain ⟨hitem, hitems⟩ := List.forall_mem_cons.1 hfixed
  rw [cut_append]
  constructor
  · rintro ⟨u, v, us, vs, hu, hv, rfl, rfl⟩
    obtain ⟨rfl, rfl⟩ := (cut_fixed hitem).1 hu
    obtain ⟨rfl, rfl⟩ := (cut_fixedRow hitems).1 hv
    exact ⟨rfl, rfl⟩
  · rintro ⟨rfl, rfl⟩
    exact ⟨_, _, _, _, (cut_fixed hitem).2 ⟨rfl, rfl⟩, (cut_fixedRow hitems).2 ⟨rfl, rfl⟩, rfl, rfl⟩

theorem Plain.splitOn_fixedItems (pages : Pages) (item : Item) (items : List Item) :
    let row := items.flatMap fun item => (item.path pages).splitOn '/'
    (item.path pages ++ behindSlashes row).splitOn '/' =
      (item :: items).flatMap fun item => (item.path pages).splitOn '/' := by
  refine splitOn_append_behindSlashes (fun s hs => ?_) _
  obtain ⟨item, -, hs⟩ := List.mem_flatMap.1 hs
  exact slash_notMem_segment hs

namespace Kind

theorem takes_iff {atStart : Bool} {block : List (List Char)} {word : List Char}
    (hkind : kind.isSegment = true) :
    kind.Takes setting atStart block word ↔
      (kind.field setting.byName).takes word ∧
        block = (kind.lead setting atStart ++ word).splitOn '/' := by
  rw [Plain.takes_field_iff hkind, and_assoc]
  cases kind with
  | pagination | all => cases hkind
  | _ => exact Iff.rfl

theorem cut_layout {atStart : Bool} (hkind : kind.isSegment = true) :
    Layout.Cut (kind.layout setting atStart) w words ↔
      ∃ word, kind.Takes setting atStart (w.splitOn '/') word ∧ words = [word] := by
  rw [layout, Plain.cut_append]
  constructor
  · rintro ⟨u, v, us, vs, hu, hv, rfl, rfl⟩
    obtain ⟨rfl, rfl⟩ := Plain.cut_letters.1 hu
    obtain ⟨htakes, rfl⟩ := Plain.cut_field.1 hv
    exact ⟨v, (takes_iff hkind).2 ⟨htakes, rfl⟩, rfl⟩
  · rintro ⟨word, htakes, rfl⟩
    obtain ⟨hword, hblock⟩ := (takes_iff hkind).1 htakes
    exact ⟨_, word, [], [word], Plain.cut_letters.2 ⟨rfl, rfl⟩, Plain.cut_field.2 ⟨hword, rfl⟩,
      splitOn_inj hblock, rfl⟩

theorem eq_of_takes {atStart : Bool} {block : List (List Char)} {word : List Char}
    (hkind : kind.isSegment = false) (h : kind.Takes setting atStart block word) :
    word = behindSlashes block := by
  cases kind with
  | pagination | all => exact h.1
  | _ => cases hkind

theorem exists_takes_iff (atStart : Bool) (hkind : kind.isSegment = false) :
    (∃ block, (∀ s ∈ block, '/' ∉ s) ∧ kind.Takes setting atStart block w) ↔
      (kind.field setting.byName).takes w := by
  cases kind with
  | pagination =>
    constructor
    · rintro ⟨block, -, rfl, rfl | ⟨ds, hds, rfl⟩⟩
      · exact .inl rfl
      · exact .inr ⟨ds, hds, behindSlashes_singleton _⟩
    · rintro (rfl | ⟨ds, hds, rfl⟩)
      · exact ⟨[], by simp, rfl, .inl rfl⟩
      · refine ⟨['P' :: ds], ?_, (behindSlashes_singleton _).symm, .inr ⟨ds, hds, rfl⟩⟩
        simp [Plain.slash_notMem_digits hds]
  | all =>
    constructor
    · rintro ⟨block, -, rfl, hline⟩
      by_cases hblock : block = []
      · exact .inl (by rw [hblock]; rfl)
      · rw [behindSlashes_eq hblock, List.mem_cons, not_or] at hline
        exact .inr ⟨_, hline.2, behindSlashes_eq hblock⟩
    · rintro (rfl | ⟨rest, hrest, rfl⟩)
      · exact ⟨[], by simp, rfl, by simp⟩
      · exact ⟨rest.splitOn '/', fun s => slash_notMem_segment, (behindSlashes_splitOn rest).symm,
          by simpa using hrest⟩
  | _ => cases hkind

theorem cut_behind : Layout.Cut (kind.layoutBehind setting) w words ↔
    ∃ block word, (∀ s ∈ block, '/' ∉ s) ∧ kind.Takes setting false block word ∧
      w = behindSlashes block ∧ words = [word] := by
  cases hkind : kind.isSegment with
  | true =>
    have hlayout : kind.layoutBehind setting = .letter '/' :: kind.layout setting false := by
      rw [layoutBehind, slash, takesSlash_eq, hkind]
      rfl
    rw [hlayout]
    constructor
    · rintro ⟨rest, rfl, hcut⟩
      obtain ⟨word, htakes, rfl⟩ := (cut_layout hkind).1 hcut
      exact ⟨_, word, fun s => slash_notMem_segment, htakes, (behindSlashes_splitOn rest).symm,
        rfl⟩
    · rintro ⟨block, word, -, htakes, rfl, rfl⟩
      obtain ⟨-, rfl⟩ := (takes_iff hkind).1 htakes
      exact ⟨_, behindSlashes_splitOn _, (cut_layout hkind).2 ⟨word, htakes, rfl⟩⟩
  | false =>
    have hlayout : kind.layoutBehind setting = [.field (kind.field setting.byName)] := by
      cases kind with
      | pagination | all => rfl
      | _ => cases hkind
    rw [hlayout, Plain.cut_field, ← exists_takes_iff false hkind]
    constructor
    · rintro ⟨⟨block, hblock, htakes⟩, rfl⟩
      exact ⟨block, w, hblock, htakes, eq_of_takes hkind htakes, rfl⟩
    · rintro ⟨block, word, hblock, htakes, rfl, rfl⟩
      obtain rfl := eq_of_takes hkind htakes
      exact ⟨⟨block, hblock, htakes⟩, rfl⟩

theorem cut_row : Layout.Cut (kinds.flatMap (layoutBehind setting)) w words ↔
    ∃ tail, (∀ s ∈ tail, '/' ∉ s) ∧ TakesRow setting false kinds tail words ∧
      w = behindSlashes tail := by
  induction kinds generalizing w words with
  | nil =>
    constructor
    · rintro ⟨rfl, rfl⟩
      exact ⟨[], by simp, ⟨rfl, rfl⟩, rfl⟩
    · rintro ⟨-, -, ⟨rfl, rfl⟩, rfl⟩
      exact ⟨rfl, rfl⟩
  | cons kind kinds ih =>
    rw [List.flatMap_cons, Plain.cut_append]
    constructor
    · rintro ⟨u, v, us, vs, hu, hv, rfl, rfl⟩
      obtain ⟨block, word, hblock, htakes, rfl, rfl⟩ := cut_behind.1 hu
      obtain ⟨rest, hrest, hrow, rfl⟩ := ih.1 hv
      exact ⟨block ++ rest, List.forall_mem_append.2 ⟨hblock, hrest⟩,
        ⟨block, rest, word, vs, htakes, hrow, rfl, rfl⟩, (behindSlashes_append block rest).symm⟩
    · rintro ⟨-, htail, ⟨block, rest, word, others, htakes, hrow, rfl, rfl⟩, rfl⟩
      obtain ⟨hblock, hrest⟩ := List.forall_mem_append.1 htail
      exact ⟨_, _, [word], others, cut_behind.2 ⟨block, word, hblock, htakes, rfl, rfl⟩,
        ih.2 ⟨rest, hrest, hrow, rfl⟩, behindSlashes_append block rest, rfl⟩

theorem cut_append_row {front : Layout} :
    Layout.Cut (front ++ kinds.flatMap (layoutBehind setting)) w words ↔
      ∃ u us tail own, Layout.Cut front u us ∧ w.splitOn '/' = u.splitOn '/' ++ tail ∧
        TakesRow setting false kinds tail own ∧ words = us ++ own := by
  rw [Plain.cut_append]
  constructor
  · rintro ⟨u, v, us, own, hu, hv, rfl, rfl⟩
    obtain ⟨tail, htail, hrow, rfl⟩ := cut_row.1 hv
    exact ⟨u, us, tail, own, hu, splitOn_append_behindSlashes htail u, hrow, rfl⟩
  · rintro ⟨u, us, tail, own, hu, hsegments, hrow, rfl⟩
    have htail : ∀ s ∈ tail, '/' ∉ s := fun s hs =>
      slash_notMem_segment (hsegments ▸ List.mem_append_right _ hs)
    have hw : w = u ++ behindSlashes tail :=
      splitOn_inj (hsegments.trans (splitOn_append_behindSlashes htail u).symm)
    exact ⟨u, _, us, own, hu, cut_row.2 ⟨tail, htail, hrow, rfl⟩, hw, rfl⟩

end Kind

namespace Tailed

theorem isSegment_of_mem_lead (h : r.IsValid pages) :
    ∀ s ∈ r.lead pages, Plain.IsSegment s := by
  have hliteral : ∀ {cs : List Char}, Plain.isLiteral cs = true → Plain.IsSegment cs := by
    intro cs hcs
    obtain ⟨hne, hall⟩ := Plain.isLiteral_iff.1 hcs
    exact ⟨hne, fun hmem => (hall '/' hmem).1 rfl⟩
  intro s hs
  obtain ⟨item, hitem, hs⟩ := List.mem_flatMap.1 hs
  obtain ⟨hfixed, hvalid⟩ := h.fixed item hitem
  cases item with
  | literal cs =>
    rw [Item.path, List.splitOn_eq_singleton (hliteral hvalid).2, List.mem_singleton] at hs
    exact hs ▸ hliteral hvalid
  | wildcard kind => cases hfixed
  | page digits =>
    obtain ⟨-, -, hall⟩ := Plain.page_of_isValid hvalid
    exact hliteral (List.all_eq_true.1 hall s hs)

theorem cut_layout (h : r.IsValid pages) :
    Layout.Cut (r.layout setting pages) w words ↔
      ∃ tail own, w.splitOn '/' = r.lead pages ++ tail ∧
        Kind.TakesRow setting r.fixed.isEmpty r.kinds tail own ∧ words = r.uris pages ++ own := by
  obtain ⟨fixed, first, others⟩ := r
  cases fixed with
  | nil =>
    refine Kind.cut_append_row.trans ⟨?_, ?_⟩
    · rintro ⟨u, us, rest, own, hu, hsegments, hrow, rfl⟩
      obtain ⟨word, htakes, rfl⟩ := (Kind.cut_layout (h.first rfl)).1 hu
      exact ⟨u.splitOn '/' ++ rest, word :: own, hsegments,
        ⟨_, rest, word, own, htakes, hrow, rfl, rfl⟩, rfl⟩
    · rintro ⟨-, -, hsegments, ⟨block, rest, word, own, htakes, hrow, rfl, rfl⟩, rfl⟩
      obtain ⟨-, rfl⟩ := (Kind.takes_iff (h.first rfl)).1 htakes
      exact ⟨_, [word], rest, own, (Kind.cut_layout (h.first rfl)).2 ⟨word, htakes, rfl⟩, hsegments,
        hrow, rfl⟩
  | cons item items =>
    have hfixed : ∀ i ∈ item :: items, i.isFixed = true := fun i hi => (h.fixed i hi).1
    have hlead := Plain.splitOn_fixedItems pages item items
    have hlayout : layout setting pages ⟨item :: items, first, others⟩ =
        (item.layout setting pages ++
          items.flatMap fun item => .letter '/' :: item.layout setting pages) ++
        (kinds ⟨item :: items, first, others⟩).flatMap (Kind.layoutBehind setting) :=
      (List.append_assoc ..).symm
    rw [hlayout]
    refine Kind.cut_append_row.trans ⟨?_, ?_⟩
    · rintro ⟨u, us, tail, own, hu, hsegments, hrow, rfl⟩
      obtain ⟨rfl, rfl⟩ := (Plain.cut_fixedItems hfixed).1 hu
      exact ⟨tail, own, hsegments.trans (congrArg (· ++ tail) hlead), hrow, rfl⟩
    · rintro ⟨tail, own, hsegments, hrow, rfl⟩
      exact ⟨_, _, tail, own, (Plain.cut_fixedItems hfixed).2 ⟨rfl, rfl⟩,
        hsegments.trans (congrArg (· ++ tail) hlead.symm), hrow, rfl⟩

/-! ## The fixed start of the rule -/

theorem literalStart?_eq {p : Pattern} {before rest : List Char}
    (hsource : p.source.toList = before ++ ':' :: rest) (hbefore : ':' ∉ before) :
    p.literalStart? = some (String.ofList (Text.trimStart Text.isSlash
      (before.filter fun c => c != '(' && c != ')'))) := by
  have hstay : ∀ c ∈ before, (c != ':') = true := fun c hc =>
    bne_iff_ne.2 fun hcolon => hbefore (hcolon ▸ hc)
  have hspan : p.source.toList.span (· != ':') = (before, ':' :: rest) := by
    rw [hsource, List.span_eq_takeWhile_dropWhile, List.takeWhile_append_of_pos hstay,
      List.dropWhile_append_of_pos hstay]
    simp
  rw [Pattern.literalStart?, hspan]

theorem filter_source {item : Item} (h : item.isValid pages = true)
    (hfixed : item.isFixed = true) :
    ((item.source pages).filter fun c => c != '(' && c != ')') = item.path pages ∧
      ':' ∉ item.source pages := by
  have hletters : ∀ {cs : List Char}, (∀ c ∈ cs, c ≠ ':' ∧ Regex.isOperator c = false) →
      (cs.filter fun c => c != '(' && c != ')') = cs ∧ ':' ∉ cs := by
    intro cs hcs
    refine ⟨List.filter_eq_self.2 fun c hc => ?_, fun hmem => (hcs _ hmem).1 rfl⟩
    have hoperator := (hcs c hc).2
    rw [Bool.and_eq_true, bne_iff_ne, bne_iff_ne]
    refine ⟨?_, ?_⟩ <;> rintro rfl <;> cases hoperator
  cases item with
  | literal cs => exact hletters fun c hc => ((Plain.isLiteral_iff.1 h).2 c hc).2
  | wildcard kind => cases hfixed
  | page digits =>
    obtain ⟨-, -, hall⟩ := Plain.page_of_isValid h
    obtain ⟨hfilter, hcolon⟩ := hletters (Plain.letters_of_segments hall)
    simp [Item.source, Item.path, hfilter, hcolon]

theorem literalStart?_of_source {p : Pattern} (h : r.IsValid pages)
    (hsource : p.source.toList = r.source pages) :
    p.literalStart? = some (String.ofList (beforeSlashes (r.lead pages))) := by
  have hfixed : ∀ item ∈ r.fixed,
      ((item.source pages).filter fun c => c != '(' && c != ')') = item.path pages ∧
        ':' ∉ item.source pages :=
    fun item hitem => filter_source (h.fixed item hitem).2 (h.fixed item hitem).1
  have hcolon : ':' ∉ beforeSlashes (r.fixed.map (Item.source pages)) := by
    simp only [beforeSlashes, List.flatMap_map, List.mem_flatMap, not_exists, not_and,
      List.mem_append, not_or]
    exact fun item hitem => ⟨(hfixed item hitem).2, by decide⟩
  have hfilter : ((beforeSlashes (r.fixed.map (Item.source pages))).filter fun c =>
      c != '(' && c != ')') = beforeSlashes (r.lead pages) := by
    rw [beforeSlashes, List.flatMap_map, List.filter_flatMap, beforeSlashes, lead,
      List.flatMap_assoc]
    refine List.flatMap_congr fun item hitem => ?_
    rw [List.filter_append, (hfixed item hitem).1, ← beforeSlashes,
      beforeSlashes_splitOn]
    rfl
  have hstart : Text.trimStart Text.isSlash (beforeSlashes (r.lead pages)) =
      beforeSlashes (r.lead pages) := by
    refine Text.trimStart_eq_self fun c hc => ?_
    cases hlead : r.lead pages with
    | nil =>
      rw [hlead] at hc
      cases hc
    | cons s lead =>
      obtain ⟨hne, hslash⟩ := isSegment_of_mem_lead h s (hlead ▸ List.mem_cons_self)
      obtain ⟨d, s, rfl⟩ := List.exists_cons_of_ne_nil hne
      rw [hlead] at hc
      obtain rfl : d = c := Option.some.inj hc
      exact beq_false_of_ne fun heq => hslash (heq ▸ List.mem_cons_self)
  obtain ⟨rest, hrest⟩ := source_eq pages r
  rw [literalStart?_eq (hsource.trans hrest) hcolon, hfilter, hstart]

/-! ## The remainder -/

theorem dropStart?_append {start path : String} {rest : List Char}
    (h : path.toList = start.toList ++ rest) :
    Text.dropStart? start path = some (String.ofList rest) := by
  rw [Text.dropStart?, List.isPrefixOf?_eq_some_iff_append_eq.2 h.symm]
  rfl

theorem trimEnd_segments (h : ∀ s ∈ w.splitOn '/', Plain.IsSegment s) :
    Text.trimEnd Text.isSlash (w ++ ['/']) = w := by
  -- The slash behind the segments is all there is to trim.
  have hstop : StopsInside w := by
    have hlast := List.dropLast_concat_getLast (List.splitOn_ne_nil '/' w)
    obtain ⟨hne, hslash⟩ := h _ (List.getLast_mem (List.splitOn_ne_nil '/' w))
    have hw : ['/'].intercalate (w.splitOn '/') = w := List.intercalate_splitOn '/'
    rw [← hw, ← hlast,
      intercalate_append_of_ne_nil (List.cons_ne_nil _ _), List.intercalate_singleton]
    exact (Plain.stopsInside_of_notMem hne hslash).append _
  obtain ⟨before, c, rfl, hc⟩ := hstop
  rw [List.append_assoc, List.singleton_append,
    Text.trimEnd_append_cons (by simpa [Text.isSlash] using hc)]
  rfl

theorem remainder?_eq {p : Pattern} {path : String} {lead tail : List (List Char)}
    (hstart : p.literalStart? = some (String.ofList (beforeSlashes lead)))
    (hlead : ∀ s ∈ lead, Plain.IsSegment s) (hpath : path.toList.splitOn '/' = lead ++ tail) :
    p.remainder? path =
      (some (Text.dropLeadingSlashes (String.ofList (['/'].intercalate tail)))).filter
        (!·.isEmpty) := by
  let start := String.ofList (beforeSlashes lead)
  have hrest : (Text.dropStart? start path).or
      (Text.dropStart? (Text.dropTrailingSlashes start) path) =
        some (String.ofList (['/'].intercalate tail)) := by
    by_cases htail : tail = []
    · -- The path ends with the start, which has one slash more.
      subst htail
      rw [List.append_nil] at hpath
      have hbefore : beforeSlashes lead = path.toList ++ ['/'] := by
        rw [← hpath, beforeSlashes_splitOn]
      have hnone : Text.dropStart? start path = none := by
        rw [Text.dropStart?, Option.map_eq_none_iff, ← Option.not_isSome_iff_eq_none,
          Option.isSome_iff_exists]
        rintro ⟨rest, hrest⟩
        have hlength := congrArg List.length (List.isPrefixOf?_eq_some_iff_append_eq.1 hrest)
        rw [String.toList_ofList, hbefore] at hlength
        simp at hlength
      have htrim : (Text.dropTrailingSlashes start).toList = path.toList := by
        rw [Text.dropTrailingSlashes, String.toList_ofList, String.toList_ofList, hbefore,
          trimEnd_segments (hpath ▸ hlead)]
      rw [hnone, Option.none_or, dropStart?_append (by rw [htrim, List.append_nil])]
      rfl
    · have hsplit : path.toList = start.toList ++ ['/'].intercalate tail := by
        rw [String.toList_ofList, ← intercalate_append_of_ne_nil htail, ← hpath,
          List.intercalate_splitOn]
      rw [dropStart?_append hsplit]
      rfl
  rw [Pattern.remainder?, hstart]
  simp only [Option.bind_eq_bind, Option.bind_some]
  rw [hrest, Option.getD_some, Option.filter_some]
  cases (Text.dropLeadingSlashes (String.ofList (['/'].intercalate tail))).isEmpty <;> simp

/-- A rule with a tail is compiled, unless it is too large. It matches the paths that have the fixed
segments and then those of its wildcards, and the latter are the remainder. -/
theorem compile_divides (setting : CategorySetting) (pages : Pages) (r : Tailed)
    (h : r.IsValid pages) :
    ∃ p : Pattern,
      Pattern.compile (String.ofList r.text) pages setting =
        (if p.regex.expr.isTooLarge then .error .tooLarge else .ok p) ∧
      ∀ path : String,
        (p.regex.isMatch path = true → ∃ tail words, r.Divides setting pages p path tail words) ∧
        ∀ tail words, path.toList.splitOn '/' = r.lead pages ++ tail →
          Kind.TakesRow setting r.fixed.isEmpty r.kinds tail words →
            p.regex.isMatch path = true := by
  obtain ⟨p, hp, hexpr, hsource⟩ := compile_layout setting h
  refine ⟨p, hp, fun path => ⟨fun hmatch => ?_, fun tail words hsegments htakes => ?_⟩⟩
  · obtain ⟨captures, hcaptures⟩ := Regex.isMatch_iff_captures?.1 hmatch
    obtain ⟨words, hcut, rfl⟩ := Regex.cut_of_captures? hexpr hcaptures
    obtain ⟨tail, own, hsegments, htakes, rfl⟩ := (cut_layout h).1 hcut
    refine ⟨tail, own, hcaptures, hsegments, htakes, ?_⟩
    exact remainder?_eq (literalStart?_of_source h hsource) (isSegment_of_mem_lead h) hsegments
  · have hcut := (cut_layout h).2 ⟨tail, words, hsegments, htakes, rfl⟩
    exact Regex.isMatch_iff_captures?.2 (Regex.captures?_of_cut hexpr hcut)

theorem compile_divides_blog :
    let pages := Pages.ofList [(2, "/about/us/")]
    let r : Tailed := ⟨[.literal "blog".toList, .page ['2']], .category, [.all]⟩
    let path := "blog/about/us/category/7/x//y"
    let tail := ["category", "7", "x", "", "y"].map String.toList
    r.IsValid pages ∧ ∃ p : Pattern,
      Pattern.compile "blog/:page:2/:category/:all" pages {} = .ok p ∧
      p.regex.isMatch path = true ∧
      (∃ words, r.Divides {} pages p path tail words) ∧
      p.remainder? path = some "category/7/x//y" := by
  intro pages r path tail
  have hvalid : r.IsValid pages := ⟨by decide, by decide⟩
  have hcompiled : (Pattern.compile "blog/:page:2/:category/:all" pages {}).toOption.map (fun p =>
      (p.regex.isMatch path, p.remainder? path)) = some (true, some "category/7/x//y") := by
    decide +kernel
  obtain ⟨q, hq, hboth⟩ := Option.map_eq_some_iff.1 hcompiled
  obtain ⟨hmatch, hremainder⟩ := Prod.mk.inj hboth
  have hok := ok_of_toOption hq
  obtain ⟨p, hp, hdivides⟩ := compile_divides {} pages r hvalid
  have htext : String.ofList r.text = "blog/:page:2/:category/:all" := by decide
  rw [htext] at hp
  have hpq : p = q := by
    have hisOk : (Pattern.compile "blog/:page:2/:category/:all" pages {}).isOk = true := by
      rw [hok]
      rfl
    exact Except.ok.inj ((Pattern.compile_of_isOk hp hisOk).symm.trans hok)
  subst hpq
  obtain ⟨own, words, hwords⟩ := (hdivides path).1 hmatch
  have hsegments : path.toList.splitOn '/' = r.lead pages ++ tail := by decide +kernel
  obtain rfl := List.append_cancel_left (hwords.segments.symm.trans hsegments)
  exact ⟨hvalid, p, hok, hmatch, ⟨words, hwords⟩, hremainder⟩

end Tailed

end Signpost
