import Signpost.Proofs.Rule.Plain
import Signpost.Proofs.Token.Capturing

/-!
# What plain rules mean

A plain rule matches a path whose segments can be cut into blocks, one for each item in order. What
the blocks capture become the tokens.
-/

namespace Signpost

/-- One or more ASCII digits. -/
def IsDigits (s : List Char) : Prop := s ≠ [] ∧ ∀ c ∈ s, c.isDigit = true

/-- The segments that a wildcard captures; those of a category are numbers unless it is named. -/
def Kind.Fits (byName : Bool) : Kind → List Char → Prop
  | .any, s | .urlTitle, s | .categoryUrlTitle, s | .username, s => s ≠ []
  | .num, s | .entryId, s | .categoryId, s | .memberId, s => IsDigits s
  | .year, s => s.length = 4 ∧ ∀ c ∈ s, c.isDigit = true
  | .month, s | .day, s => s.length = 2 ∧ ∀ c ∈ s, c.isDigit = true
  | .category, s => if byName then s ≠ [] else IsDigits s
  | .pagination, _ | .all, _ => False

namespace Plain

/-- What a group took, and the value of its token. -/
structure Taken where
  kind : Option Kind
  text : List Char
  value : List Char
  deriving DecidableEq, Repr

/-- The block of segments that an item stands for, and what is taken from it. -/
def Item.Takes (setting : CategorySetting) (pages : Pages) :
    Item → (block : List (List Char)) → List Taken → Prop
  | literal cs, block, taken => block = [cs] ∧ taken = []
  | wildcard kind, block, taken =>
    ∃ s, kind.Fits setting.byName s ∧ block = kind.before setting ++ [s] ∧
      taken = [⟨some kind, s, s⟩]
  | page digits, block, taken =>
    ∃ uri, pages.uri? digits = some uri ∧ block = uri.splitOn '/' ∧ taken = [⟨none, uri, uri⟩]

/-- A page number behind a `P` is the last segment, or there is none. -/
def TakesPagination (paginated : Bool) (block : List (List Char)) (taken : List Taken) : Prop :=
  match paginated with
  | false => block = [] ∧ taken = []
  | true =>
    block = [] ∧ taken = [⟨some .pagination, [], []⟩] ∨
      ∃ ds, IsDigits ds ∧ block = ['P' :: ds] ∧
        taken = [⟨some .pagination, '/' :: 'P' :: ds, 'P' :: ds⟩]

/-- The segments are cut into the blocks of the items in order, and a page number. -/
def TakesRow (setting : CategorySetting) (pages : Pages) (paginated : Bool) :
    List Item → (segments : List (List Char)) → List Taken → Prop
  | [], segments, taken => TakesPagination paginated segments taken
  | item :: items, segments, taken =>
    ∃ block rest own others, item.Takes setting pages block own ∧
      TakesRow setting pages paginated items rest others ∧
      segments = block ++ rest ∧ taken = own ++ others

/-- The segments of a path are cut into the blocks of a rule. -/
def Rule.Takes (setting : CategorySetting) (pages : Pages) (r : Rule)
    (segments : List (List Char)) (taken : List Taken) : Prop :=
  TakesRow setting pages r.paginated r.items segments taken

def tokens (taken : List Taken) : List Token :=
  Token.number (taken.map fun t => (t.kind, some (String.ofList t.value)))

open Regex (Atom Layout Field)

variable {setting : CategorySetting} {pages : Pages} {paginated : Bool} {as bs : Layout}
  {w : List Char} {words : List (List Char)} {block segments : List (List Char)}
  {taken : List Taken}

/-! ## Cutting the path of a layout -/

theorem cut_append : Layout.Cut (as ++ bs) w words ↔
    ∃ u v us vs, Layout.Cut as u us ∧ Layout.Cut bs v vs ∧ w = u ++ v ∧ words = us ++ vs := by
  induction as generalizing w words with
  | nil =>
    constructor
    · exact fun h => ⟨[], w, [], words, ⟨rfl, rfl⟩, h, rfl, rfl⟩
    · rintro ⟨u, v, us, vs, ⟨rfl, rfl⟩, h, rfl, rfl⟩
      exact h
  | cons a as ih =>
    cases a with
    | letter c =>
      constructor
      · rintro ⟨rest, rfl, h⟩
        obtain ⟨u, v, us, vs, hu, hv, rfl, rfl⟩ := ih.1 h
        exact ⟨c :: u, v, us, vs, ⟨u, rfl, hu⟩, hv, rfl, rfl⟩
      · rintro ⟨u, v, us, vs, ⟨rest, rfl, hu⟩, hv, rfl, rfl⟩
        exact ⟨rest ++ v, rfl, ih.2 ⟨rest, v, us, vs, hu, hv, rfl, rfl⟩⟩
    | field f =>
      constructor
      · rintro ⟨t, rest, others, ht, h, rfl, rfl⟩
        obtain ⟨u, v, us, vs, hu, hv, rfl, rfl⟩ := ih.1 h
        exact ⟨t ++ u, v, t :: us, vs, ⟨t, u, us, ht, hu, rfl, rfl⟩, hv, by simp, rfl⟩
      · rintro ⟨u, v, us, vs, ⟨t, rest, others, ht, hu, rfl, rfl⟩, hv, rfl, rfl⟩
        exact ⟨t, rest ++ v, others ++ vs, ht, ih.2 ⟨rest, v, others, vs, hu, hv, rfl, rfl⟩,
          by simp, rfl⟩

theorem cut_letters {cs : List Char} :
    Layout.Cut (cs.map .letter) w words ↔ w = cs ∧ words = [] := by
  induction cs generalizing w with
  | nil => rfl
  | cons c cs ih =>
    constructor
    · rintro ⟨rest, rfl, h⟩
      obtain ⟨rfl, rfl⟩ := ih.1 h
      exact ⟨rfl, rfl⟩
    · rintro ⟨rfl, rfl⟩
      exact ⟨cs, rfl, ih.2 ⟨rfl, rfl⟩⟩

theorem cut_field {f : Field} :
    Layout.Cut [.field f] w words ↔ f.takes w ∧ words = [w] := by
  constructor
  · rintro ⟨u, rest, others, hu, ⟨rfl, rfl⟩, rfl, rfl⟩
    rw [List.append_nil]
    exact ⟨hu, rfl⟩
  · rintro ⟨hw, rfl⟩
    exact ⟨w, [], [], hw, ⟨rfl, rfl⟩, (List.append_nil w).symm, rfl⟩

/-! ## The block of an item -/

theorem takes_field_iff {kind : Kind} {s : List Char} (h : kind.isSegment = true) :
    (kind.field setting.byName).takes s ↔ kind.Fits setting.byName s ∧ '/' ∉ s := by
  have hdigits : (∀ c ∈ s, c.isDigit = true) → '/' ∉ s := fun hall hmem => by
    cases hall '/' hmem
  have hmany : IsDigits s ↔ IsDigits s ∧ '/' ∉ s :=
    ⟨fun hs => ⟨hs, hdigits hs.2⟩, And.left⟩
  have hexactly : ∀ n, (s.length = n ∧ ∀ c ∈ s, c.isDigit = true) ↔
      (s.length = n ∧ ∀ c ∈ s, c.isDigit = true) ∧ '/' ∉ s := fun n =>
    ⟨fun hs => ⟨hs, hdigits hs.2⟩, And.left⟩
  cases kind with
  | any | urlTitle | categoryUrlTitle | username => exact Iff.rfl
  | num | entryId | categoryId | memberId => exact hmany
  | year => exact hexactly 4
  | month | day => exact hexactly 2
  | category =>
    simp only [Kind.field, Kind.Fits]
    cases setting.byName with
    | true => exact Iff.rfl
    | false => exact hmany
  | pagination | all => cases h

theorem cut_wildcard {kind : Kind} (h : kind.isSegment = true) :
    Layout.Cut ((Item.wildcard kind).layout setting pages) w words ↔
      ∃ s, (kind.field setting.byName).takes s ∧
        w = ['/'].intercalate (kind.before setting ++ [s]) ∧ words = [s] := by
  have hone : kind.before setting = [] →
      (Layout.Cut ((Item.wildcard kind).layout setting pages) w words ↔
        ∃ s, (kind.field setting.byName).takes s ∧
          w = ['/'].intercalate (kind.before setting ++ [s]) ∧ words = [s]) := by
    intro hbefore
    rw [Item.layout, hbefore, List.flatMap_nil, List.nil_append, cut_field]
    simp
  cases kind with
  | category =>
    have hlayout : (Item.wildcard .category).layout setting pages =
        (setting.word.toList ++ ['/']).map .letter ++
          [.field (Kind.category.field setting.byName)] := by
      simp [Item.layout, Kind.before]
    rw [hlayout, cut_append]
    constructor
    · rintro ⟨u, v, us, vs, hu, hv, rfl, rfl⟩
      obtain ⟨rfl, rfl⟩ := cut_letters.1 hu
      obtain ⟨htakes, rfl⟩ := cut_field.1 hv
      exact ⟨v, htakes, by simp [Kind.before, List.intercalate_cons_cons], rfl⟩
    · rintro ⟨s, htakes, rfl, rfl⟩
      exact ⟨_, s, [], [s], cut_letters.2 ⟨rfl, rfl⟩, cut_field.2 ⟨htakes, rfl⟩,
        by simp [Kind.before, List.intercalate_cons_cons], rfl⟩
  | pagination | all => cases h
  | _ => exact hone rfl

theorem cut_item {item : Item} (hword : IsSegment setting.word.toList)
    (h : item.isValid pages = true) :
    Layout.Cut (item.layout setting pages) w words ↔
      ∃ taken, item.Takes setting pages (w.splitOn '/') taken ∧ words = taken.map Taken.text := by
  cases item with
  | literal cs =>
    have hcs : '/' ∉ cs := fun hmem => ((isLiteral_iff.1 h).2 '/' hmem).1 rfl
    have hblock : w.splitOn '/' = [cs] ↔ w = cs := by
      rw [splitOn_eq_iff (List.cons_ne_nil _ _)]
      simp [hcs]
    rw [Item.layout, cut_letters]
    simp [Item.Takes, hblock]
  | wildcard kind =>
    have hbefore : ∀ s ∈ kind.before setting, '/' ∉ s := by
      cases kind with
      | category => exact List.forall_mem_singleton.2 hword.2
      | _ => simp [Kind.before]
    rw [cut_wildcard h]
    constructor
    · rintro ⟨s, htakes, hw, rfl⟩
      obtain ⟨hfits, hs⟩ := (takes_field_iff h).1 htakes
      have hall : ∀ t ∈ kind.before setting ++ [s], '/' ∉ t :=
        List.forall_mem_append.2 ⟨hbefore, List.forall_mem_singleton.2 hs⟩
      exact ⟨_, ⟨s, hfits, (splitOn_eq_iff (by simp)).2 ⟨hall, hw⟩, rfl⟩, rfl⟩
    · rintro ⟨taken, ⟨s, hfits, hblock, rfl⟩, rfl⟩
      obtain ⟨hall, hw⟩ := (splitOn_eq_iff (by simp)).1 hblock
      have hs : '/' ∉ s := hall s (List.mem_append_right _ (List.mem_singleton.2 rfl))
      exact ⟨s, (takes_field_iff h).2 ⟨hfits, hs⟩, hw, rfl⟩
  | page digits =>
    obtain ⟨-, huri, -⟩ := page_of_isValid h
    have hblock : ∀ uri : List Char, w.splitOn '/' = uri.splitOn '/' ↔ w = uri := by
      intro uri
      rw [splitOn_eq_iff (List.splitOn_ne_nil _ _), List.intercalate_splitOn]
      exact and_iff_right fun s => slash_notMem_segment
    rw [Item.layout, cut_field]
    simp only [Item.Takes, huri, hblock, Option.some.injEq, Field.takes]
    constructor
    · rintro ⟨rfl, rfl⟩
      exact ⟨_, ⟨_, rfl, rfl, rfl⟩, rfl⟩
    · rintro ⟨taken, ⟨uri, rfl, rfl, rfl⟩, rfl⟩
      exact ⟨rfl, rfl⟩

/-! ## The blocks of a row -/

theorem Item.Takes.block_ne_nil {item : Item} (h : item.Takes setting pages block taken) :
    block ≠ [] := by
  cases item with
  | literal cs =>
    obtain ⟨rfl, -⟩ := h
    simp
  | wildcard kind =>
    obtain ⟨s, -, rfl, -⟩ := h
    simp
  | page digits =>
    obtain ⟨uri, -, rfl, -⟩ := h
    exact List.splitOn_ne_nil _ _

theorem slash_notMem_digits {ds : List Char} (h : IsDigits ds) : '/' ∉ ds := fun hmem => by
  cases h.2 '/' hmem

theorem cut_pagination :
    Layout.Cut (if paginated then [.field .pagination] else []) w words ↔
      ∃ block taken, (∀ s ∈ block, '/' ∉ s) ∧ TakesPagination paginated block taken ∧
        w = behindSlashes block ∧ words = taken.map Taken.text := by
  cases paginated with
  | false =>
    constructor
    · rintro ⟨rfl, rfl⟩
      exact ⟨[], [], by simp, ⟨rfl, rfl⟩, rfl, rfl⟩
    · rintro ⟨block, taken, -, ⟨rfl, rfl⟩, rfl, rfl⟩
      exact ⟨rfl, rfl⟩
  | true =>
    refine cut_field.trans ?_
    constructor
    · rintro ⟨rfl | ⟨ds, hds, rfl⟩, rfl⟩
      · exact ⟨[], _, by simp, .inl ⟨rfl, rfl⟩, rfl, rfl⟩
      · refine ⟨['P' :: ds], _, ?_, .inr ⟨ds, hds, rfl, rfl⟩, ?_, rfl⟩
        · simp [slash_notMem_digits hds]
        · exact (behindSlashes_singleton _).symm
    · rintro ⟨block, taken, -, ⟨rfl, rfl⟩ | ⟨ds, hds, rfl, rfl⟩, rfl, rfl⟩
      · exact ⟨.inl rfl, rfl⟩
      · rw [behindSlashes_singleton]
        exact ⟨.inr ⟨ds, hds, rfl⟩, rfl⟩

theorem cut_row {items : List Item} (hword : IsSegment setting.word.toList)
    (h : ∀ item ∈ items, item.isValid pages = true) :
    Layout.Cut ((items.flatMap fun item => .letter '/' :: item.layout setting pages) ++
        (if paginated then [.field .pagination] else [])) w words ↔
      ∃ segments taken, (∀ s ∈ segments, '/' ∉ s) ∧
        TakesRow setting pages paginated items segments taken ∧
        w = behindSlashes segments ∧ words = taken.map Taken.text := by
  induction items generalizing w words with
  | nil => exact cut_pagination
  | cons item items ih =>
    obtain ⟨hitem, hitems⟩ := List.forall_mem_cons.1 h
    rw [List.flatMap_cons, List.cons_append, List.cons_append, List.append_assoc]
    constructor
    · rintro ⟨rest, rfl, hcut⟩
      obtain ⟨u, v, us, vs, hu, hv, rfl, rfl⟩ := cut_append.1 hcut
      obtain ⟨own, hown, rfl⟩ := (cut_item hword hitem).1 hu
      obtain ⟨segments, others, hsegments, hrow, rfl, rfl⟩ := (ih hitems).1 hv
      refine ⟨u.splitOn '/' ++ segments, own ++ others, ?_,
        ⟨_, segments, own, others, hown, hrow, rfl, rfl⟩, ?_, List.map_append.symm⟩
      · exact List.forall_mem_append.2 ⟨fun s => slash_notMem_segment, hsegments⟩
      · rw [behindSlashes_append, behindSlashes_splitOn]
        rfl
    · rintro ⟨-, -, hsegments, ⟨block, rest, own, others, hown, hrow, rfl, rfl⟩, rfl, rfl⟩
      obtain ⟨hblock, hrest⟩ := List.forall_mem_append.1 hsegments
      have hne := hown.block_ne_nil
      have hsplit : (['/'].intercalate block).splitOn '/' = block :=
        List.splitOn_intercalate '/' hblock hne
      refine ⟨['/'].intercalate block ++ behindSlashes rest, ?_, cut_append.2
        ⟨_, _, own.map Taken.text, others.map Taken.text, (cut_item hword hitem).2 ⟨own, ?_, rfl⟩,
          (ih hitems).2 ⟨rest, others, hrest, hrow, rfl, rfl⟩, rfl, List.map_append⟩⟩
      · rw [behindSlashes_append, behindSlashes_eq hne]
        rfl
      · rwa [hsplit]

theorem cut_layout {r : Rule} (hword : IsSegment setting.word.toList)
    (h : r.isValid pages = true) :
    Layout.Cut (r.layout setting pages) w words ↔
      ∃ taken, r.Takes setting pages (w.splitOn '/') taken ∧ words = taken.map Taken.text := by
  obtain ⟨hfirst, hothers⟩ := List.forall_mem_cons.1 (List.all_eq_true.1 h)
  rw [Rule.layout, Rule.join, List.append_assoc, cut_append]
  constructor
  · rintro ⟨u, v, us, vs, hu, hv, rfl, rfl⟩
    obtain ⟨own, hown, rfl⟩ := (cut_item hword hfirst).1 hu
    obtain ⟨segments, others, hsegments, hrow, rfl, rfl⟩ := (cut_row hword hothers).1 hv
    exact ⟨own ++ others, ⟨_, segments, own, others, hown, hrow,
      splitOn_append_behindSlashes hsegments u, rfl⟩, List.map_append.symm⟩
  · rintro ⟨-, ⟨block, rest, own, others, hown, hrow, hsegments, rfl⟩, rfl⟩
    obtain ⟨u, rfl, rfl⟩ := exists_of_splitOn_eq_append hown.block_ne_nil hsegments
    have hrest : ∀ s ∈ rest, '/' ∉ s := fun s hs =>
      slash_notMem_segment (hsegments ▸ List.mem_append_right _ hs)
    exact ⟨u, _, own.map Taken.text, others.map Taken.text,
      (cut_item hword hfirst).2 ⟨own, hown, rfl⟩,
      (cut_row hword hothers).2 ⟨rest, others, hrest, hrow, rfl, rfl⟩, rfl, List.map_append⟩

/-! ## There is one way to cut -/

theorem Item.Takes.length_eq {item : Item} {block' : List (List Char)} {taken' : List Taken}
    (h : item.Takes setting pages block taken) (h' : item.Takes setting pages block' taken') :
    block.length = block'.length := by
  cases item with
  | literal cs =>
    obtain ⟨rfl, -⟩ := h
    obtain ⟨rfl, -⟩ := h'
    rfl
  | wildcard kind =>
    obtain ⟨s, -, rfl, -⟩ := h
    obtain ⟨s', -, rfl, -⟩ := h'
    simp
  | page digits =>
    obtain ⟨uri, huri, rfl, -⟩ := h
    obtain ⟨uri', huri', rfl, -⟩ := h'
    rw [Option.some.inj (huri.symm.trans huri')]

theorem Item.Takes.unique {item : Item} {taken' : List Taken}
    (h : item.Takes setting pages block taken) (h' : item.Takes setting pages block taken') :
    taken = taken' := by
  cases item with
  | literal cs => exact h.2.trans h'.2.symm
  | wildcard kind =>
    obtain ⟨s, -, rfl, rfl⟩ := h
    obtain ⟨s', -, hblock, rfl⟩ := h'
    obtain rfl := List.singleton_inj.1 (List.append_cancel_left hblock)
    rfl
  | page digits =>
    obtain ⟨uri, huri, -, rfl⟩ := h
    obtain ⟨uri', huri', -, rfl⟩ := h'
    rw [Option.some.inj (huri.symm.trans huri')]

theorem TakesRow.unique {items : List Item} {taken' : List Taken}
    (h : TakesRow setting pages paginated items segments taken)
    (h' : TakesRow setting pages paginated items segments taken') : taken = taken' := by
  induction items generalizing segments taken taken' with
  | nil =>
    cases paginated with
    | false => exact h.2.trans h'.2.symm
    | true =>
      obtain ⟨rfl, rfl⟩ | ⟨ds, -, rfl, rfl⟩ := h
      · obtain ⟨-, rfl⟩ | ⟨ds', -, hblock, -⟩ := h'
        · rfl
        · cases hblock
      · obtain ⟨hblock, -⟩ | ⟨ds', -, hblock, rfl⟩ := h'
        · cases hblock
        · cases hblock
          rfl
  | cons item items ih =>
    obtain ⟨block, rest, own, others, hown, hrow, rfl, rfl⟩ := h
    obtain ⟨block', rest', own', others', hown', hrow', hsegments, rfl⟩ := h'
    obtain ⟨rfl, rfl⟩ := List.append_inj hsegments (hown.length_eq hown')
    rw [hown.unique hown', ih hrow hrow']

/-! ## Tokens -/

theorem Item.Takes.kinds {item : Item} (h : item.Takes setting pages block taken) :
    taken.map Taken.kind = item.kinds := by
  cases item with
  | literal cs =>
    obtain ⟨-, rfl⟩ := h
    rfl
  | wildcard kind =>
    obtain ⟨s, -, -, rfl⟩ := h
    rfl
  | page digits =>
    obtain ⟨uri, -, -, rfl⟩ := h
    rfl

theorem TakesRow.kinds {items : List Item}
    (h : TakesRow setting pages paginated items segments taken) :
    taken.map Taken.kind =
      items.flatMap Item.kinds ++ (if paginated then [some .pagination] else []) := by
  induction items generalizing segments taken with
  | nil =>
    cases paginated with
    | false =>
      obtain ⟨-, rfl⟩ := h
      rfl
    | true => obtain ⟨-, rfl⟩ | ⟨ds, -, -, rfl⟩ := h <;> rfl
  | cons item items ih =>
    obtain ⟨block, rest, own, others, hown, hrow, -, rfl⟩ := h
    rw [List.map_append, hown.kinds, ih hrow, List.flatMap_cons, List.append_assoc]

/-- The value of a token is the text of its group without slashes at the ends. -/
structure Taken.Fair (t : Taken) : Prop where
  value : Text.trim Text.isSlash t.text = t.value
  kind : t.kind ≠ some .all

theorem trim_segment {s : List Char} (h : '/' ∉ s) : Text.trim Text.isSlash s = s := by
  cases s with
  | nil => rfl
  | cons c cs =>
    refine trim_of_inside ⟨c, cs, rfl, ?_⟩ (stopsInside_of_notMem (List.cons_ne_nil _ _) h)
    rintro rfl
    exact h List.mem_cons_self

theorem trim_uri {uri : List Char} (h : (uri.splitOn '/').all isLiteral = true) :
    Text.trim Text.isSlash uri = uri := by
  have hnil : [] ∉ uri.splitOn '/' := fun hmem => by cases List.all_eq_true.1 h [] hmem
  have hne : uri ≠ [] := by
    rintro rfl
    exact hnil List.mem_cons_self
  have hends : ∀ u v, uri = u ++ '/' :: v → u ≠ [] ∧ v ≠ [] := by
    rintro u v rfl
    rw [List.splitOn_append_cons_self, List.mem_append, not_or] at hnil
    refine ⟨?_, ?_⟩ <;> rintro rfl
    · exact hnil.1 List.mem_cons_self
    · exact hnil.2 List.mem_cons_self
  refine trim_of_inside ?_ ⟨_, _, (List.dropLast_concat_getLast hne).symm, ?_⟩
  · obtain ⟨c, cs, rfl⟩ := List.exists_cons_of_ne_nil hne
    refine ⟨c, cs, rfl, ?_⟩
    rintro rfl
    exact (hends [] cs rfl).1 rfl
  · intro hlast
    have hconcat := (List.dropLast_concat_getLast hne).symm
    rw [hlast] at hconcat
    exact (hends _ [] hconcat).2 rfl

theorem Item.Takes.fair {item : Item} (hvalid : item.isValid pages = true)
    (hblock : ∀ s ∈ block, '/' ∉ s) (h : item.Takes setting pages block taken) :
    ∀ t ∈ taken, t.Fair := by
  cases item with
  | literal cs =>
    obtain ⟨-, rfl⟩ := h
    simp
  | wildcard kind =>
    obtain ⟨s, -, rfl, rfl⟩ := h
    have hs : '/' ∉ s := hblock s (List.mem_append_right _ (List.mem_singleton.2 rfl))
    refine List.forall_mem_singleton.2 ⟨trim_segment hs, ?_⟩
    rintro ⟨⟩
    cases hvalid
  | page digits =>
    obtain ⟨uri, huri, -, rfl⟩ := h
    obtain ⟨-, hknown, hall⟩ := page_of_isValid hvalid
    obtain rfl := Option.some.inj (hknown.symm.trans huri)
    exact List.forall_mem_singleton.2 ⟨trim_uri hall, by simp⟩

theorem TakesRow.fair {items : List Item} (hvalid : ∀ item ∈ items, item.isValid pages = true)
    (hsegments : ∀ s ∈ segments, '/' ∉ s)
    (h : TakesRow setting pages paginated items segments taken) : ∀ t ∈ taken, t.Fair := by
  induction items generalizing segments taken with
  | nil =>
    cases paginated with
    | false =>
      obtain ⟨-, rfl⟩ := h
      simp
    | true =>
      obtain ⟨-, rfl⟩ | ⟨ds, hds, -, rfl⟩ := h
      · exact List.forall_mem_singleton.2 ⟨rfl, by simp⟩
      · have hpage : '/' ∉ 'P' :: ds := by simp [slash_notMem_digits hds]
        exact List.forall_mem_singleton.2 ⟨trim_segment hpage, by simp⟩
  | cons item items ih =>
    obtain ⟨block, rest, own, others, hown, hrow, rfl, rfl⟩ := h
    obtain ⟨hitem, hitems⟩ := List.forall_mem_cons.1 hvalid
    obtain ⟨hblock, hrest⟩ := List.forall_mem_append.1 hsegments
    exact List.forall_mem_append.2 ⟨hown.fair hitem hblock, ih hitems hrest hrow⟩

def texts (taken : List Taken) : List (Option String) :=
  taken.map fun t => some (String.ofList t.text)

theorem new_fair {t : Taken} (h : t.Fair) (index : Nat) :
    Token.new index (Token.trimmed (some (String.ofList t.text))) t.kind =
      Token.new index (some (String.ofList t.value)) t.kind := by
  have htrim : Text.trimSlashes (String.ofList t.text) = String.ofList t.value := by
    rw [Text.trimSlashes, String.toList_ofList, h.value]
  simp [Token.new, Token.trimmed, htrim, Option.filter_filter]

theorem ofCaptures_eq (p : Pattern) (captures : List (Option String)) :
    Token.ofCaptures p captures = Token.number
      (captures.zipIdx.map fun c => Token.block (p.kind? (c.2 + 1)) c.1).flatten := rfl

theorem number_eq (parts : List (Option Kind × Option String)) :
    Token.number parts = parts.zipIdx.map fun part => .new (part.2 + 1) part.1.2 part.1.1 := rfl

/-- The kind and the value that a group gives before its token is made. -/
def Taken.part (t : Taken) : Option Kind × Option String :=
  (t.kind, Token.trimmed (some (String.ofList t.text)))

theorem blocks_texts {p : Pattern} (hkinds : taken.map Taken.kind = p.kinds)
    (h : ∀ t ∈ taken, t.Fair) :
    ((texts taken).zipIdx.map fun c => Token.block (p.kind? (c.2 + 1)) c.1) =
      taken.map fun t => [t.part] := by
  refine List.ext_getElem (by simp [texts]) fun i hi hi' => ?_
  have hlt : i < taken.length := by simpa using hi'
  have hkind : p.kind? (i + 1) = taken[i].kind := by
    simp [Pattern.kind?, ← hkinds, hlt]
  simp only [texts, List.getElem_map, List.getElem_zipIdx, Nat.zero_add, hkind]
  exact Token.block_other (h _ (List.getElem_mem hlt)).kind _

theorem ofCaptures_texts {p : Pattern} (hkinds : taken.map Taken.kind = p.kinds)
    (h : ∀ t ∈ taken, t.Fair) : Token.ofCaptures p (texts taken) = tokens taken := by
  have hparts : (taken.map fun t => [t.part]).flatten = taken.map Taken.part := by
    rw [← List.flatMap_def, ← List.map_eq_flatMap]
  rw [ofCaptures_eq, blocks_texts hkinds h, hparts, tokens, number_eq, number_eq]
  refine List.ext_getElem (by simp) fun i hi hi' => ?_
  have hlt : i < taken.length := by simpa using hi'
  have hnew := new_fair (h _ (List.getElem_mem hlt)) (i + 1)
  simpa [Taken.part] using hnew

/-! ## Plain rules mean what they say -/

/-- A compiled rule matches the paths whose segments are cut into the blocks of its items, and what
is taken from them becomes its tokens. -/
structure Rule.Means (setting : CategorySetting) (pages : Pages) (r : Rule) (p : Pattern) :
    Prop where
  isMatch_iff : ∀ path : String, p.regex.isMatch path = true ↔
    ∃ taken, r.Takes setting pages (path.toList.splitOn '/') taken
  captures_of_takes : ∀ (path : String) (taken : List Taken),
    r.Takes setting pages (path.toList.splitOn '/') taken →
      p.regex.captures? path = some (texts taken) ∧
        Token.ofCaptures p (texts taken) = tokens taken

theorem means_of_layout {r : Rule} {p : Pattern} (hword : IsSegment setting.word.toList)
    (h : r.isValid pages = true)
    (hexpr : p.regex.expr = (Regex.Expr.ofItems (Layout.exprs 0 (r.layout setting pages))).anchored)
    (hkinds : p.kinds = r.kinds) : r.Means setting pages p := by
  have htakes : ∀ path captures, p.regex.captures? path = some captures →
      ∃ taken, r.Takes setting pages (path.toList.splitOn '/') taken ∧
        captures = texts taken := by
    intro path captures hcaptures
    obtain ⟨words, hcut, rfl⟩ := Regex.cut_of_captures? hexpr hcaptures
    obtain ⟨taken, htaken, rfl⟩ := (cut_layout hword h).1 hcut
    exact ⟨taken, htaken, by simp [texts]⟩
  have hcaptures : ∀ path taken, r.Takes setting pages (path.toList.splitOn '/') taken →
      ∃ captures, p.regex.captures? path = some captures := fun path taken htaken =>
    Regex.captures?_of_cut hexpr ((cut_layout hword h).2 ⟨taken, htaken, rfl⟩)
  constructor
  · intro path
    rw [Regex.isMatch_iff_captures?]
    constructor
    · rintro ⟨captures, hfound⟩
      obtain ⟨taken, htaken, -⟩ := htakes path captures hfound
      exact ⟨taken, htaken⟩
    · rintro ⟨taken, htaken⟩
      exact hcaptures path taken htaken
  · intro path taken htaken
    obtain ⟨captures, hfound⟩ := hcaptures path taken htaken
    obtain ⟨taken', htaken', rfl⟩ := htakes path captures hfound
    obtain rfl := TakesRow.unique htaken htaken'
    refine ⟨hfound, ofCaptures_texts ?_ ?_⟩
    · exact (TakesRow.kinds htaken).trans hkinds.symm
    · exact TakesRow.fair (List.all_eq_true.1 h) (fun s => slash_notMem_segment) htaken

/-- A plain rule compiles, unless it is too large, and means what it says. -/
theorem compile_means (setting : CategorySetting) (pages : Pages) (r : Rule)
    (hword : IsSegment setting.word.toList) (h : r.isValid pages = true) :
    ∃ p : Pattern,
      Pattern.compile (String.ofList r.text) pages setting =
        (if p.regex.expr.isTooLarge then .error .tooLarge else .ok p) ∧
      r.Means setting pages p := by
  obtain ⟨p, hcompile, hexpr, hkinds⟩ := compile_plain hword h
  exact ⟨p, hcompile, means_of_layout hword h hexpr hkinds⟩

theorem compile_means_blog :
    let pages := Pages.ofList [(2, "/about/us/")]
    let rule : Rule := ⟨.literal "blog".toList,
      [.wildcard .category, .page ['2'], .wildcard .year], true⟩
    IsSegment "category".toList ∧ rule.isValid pages = true ∧
      ∃ p, Pattern.compile "blog/:category/:page:2/:year/:pagination" pages {} = .ok p ∧
        rule.Means {} pages p := by
  intro pages rule
  have hword : IsSegment "category".toList := by decide
  have hvalid : rule.isValid pages = true := by decide
  have hsome :
      (Pattern.compile "blog/:category/:page:2/:year/:pagination" pages {}).isOk = true := by
    decide +kernel
  obtain ⟨p, hcompile, hmeans⟩ := compile_means {} pages rule hword hvalid
  refine ⟨hword, hvalid, p, ?_, hmeans⟩
  have htext : String.ofList rule.text = "blog/:category/:page:2/:year/:pagination" := by decide
  rw [htext] at hcompile
  rw [hcompile] at hsome ⊢
  split at hsome
  · cases hsome
  · rw [if_neg ‹_›]

end Plain

end Signpost
