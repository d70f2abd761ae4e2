import Signpost.Proofs.Token.ChannelConstraints

/-!
# Categories of channels

A check on categories with constraints on channels is a join. It holds if some stored category meets
all other constraints of the filter, and some stored channel meets those on channels and lists the
group of that category. The groups of all such channels are gathered first, cut down to those that the
filter itself accepts, and put in the place of its own constraint on the group.
-/

namespace Signpost

variable {m : MemoryStore} {t : Token} {filter : Where} {ctx : Context} {row channel : Row}
  {group : String}

namespace MemoryStore

/-! ## The join -/

/-- A category that meets a filter, with a channel that meets it too if it has a constraint on
channels. -/
structure Joins (m : MemoryStore) (filter : Where) (row : Row) : Prop where
  category : ∀ e ∈ filter.columns.entries, e.1 ∉ channelColumns →
    (row.get? e.1).any e.2.accepts = true
  channel : (∃ column ∈ channelColumns, filter.contains column = true) →
    ∃ channel ∈ m.channels,
      (∀ e ∈ filter.columns.entries, e.1 ∈ channelColumns →
        (channel.get? (storedColumn e.1)).any e.2.accepts = true) ∧
      ∃ group ∈ Text.split '|' ((channel.get? "cat_group").getD ""),
        group ≠ "" ∧ row.get? "group_id" = some group

instance (m : MemoryStore) (filter : Where) (row : Row) : Decidable (m.Joins filter row) :=
  decidable_of_iff (_ ∧ _) ⟨fun h => ⟨h.1, h.2⟩, fun h => ⟨h.category, h.channel⟩⟩

theorem mem_groupsOf_iff : group ∈ groupsOf channel ↔
    group ∈ Text.split '|' ((channel.get? "cat_group").getD "") ∧ group ≠ "" := by
  rw [groupsOf]
  cases channel.get? "cat_group" with
  | none =>
    have hblank : Text.split '|' "" = [""] := rfl
    simp [hblank]
  | some groups => simp

theorem mem_findCategoryGroups_iff {w : Where} : group ∈ m.findCategoryGroups w ↔
    ∃ channel ∈ m.channels, w.accepts channel = true ∧ group ∈ groupsOf channel := by
  simp [findCategoryGroups, and_assoc]

/-! ## The filter for rows -/

/-- The filter that a check on categories asks for rows with in the end. -/
def categoryFilter (m : MemoryStore) (filter : Where) : Where :=
  let (channels, rest) := Token.takeChannels filter
  if channels.isEmpty then rest
  else Token.narrowToGroups rest (m.findCategoryGroups channels)

theorem any_among_iff {value : Option String} {groups : List String} :
    value.any (Constraint.among groups).accepts = true ↔ ∃ group ∈ groups, value = some group := by
  cases value <;> simp [Constraint.accepts]

theorem accepts_narrowToGroups_iff (w : Where) (groups : List String) (row : Row) :
    (Token.narrowToGroups w groups).accepts row = true ↔
      w.accepts row = true ∧ ∃ group ∈ groups, row.get? "group_id" = some group := by
  rw [Where.accepts_iff_erase fun _ hother => Token.get?_narrowToGroups hother w groups,
    @Where.accepts_iff_erase w w row "group_id" fun _ _ => rfl, Token.narrowToGroups]
  simp only [Where.get?_insert_self, Option.some.injEq, forall_eq', any_among_iff]
  cases hown : w.get? "group_id" with
  | none => simp [and_comm]
  | some own =>
    simp only [Option.some.injEq, forall_eq', List.mem_filter]
    constructor
    · rintro ⟨⟨group, ⟨hmem, haccepts⟩, hgroup⟩, hrest⟩
      exact ⟨⟨by rw [hgroup]; exact haccepts, hrest⟩, group, hmem, hgroup⟩
    · rintro ⟨⟨haccepts, hrest⟩, group, hmem, hgroup⟩
      rw [hgroup] at haccepts
      exact ⟨⟨group, ⟨hmem, haccepts⟩, hgroup⟩, hrest⟩

section OneName

variable (hone : ¬ (filter.contains "channel" = true ∧ filter.contains "channel_name" = true))

include hone

theorem accepts_rest_iff : (Token.takeChannels filter).2.accepts row = true ↔
    ∀ e ∈ filter.columns.entries, e.1 ∉ channelColumns →
      (row.get? e.1).any e.2.accepts = true := by
  rw [Where.accepts_iff]
  constructor
  · intro h e he hcolumn
    refine h e.1 e.2 ?_
    rw [Token.get?_rest hone, if_neg hcolumn]
    exact Dict.get?_eq_some_of_mem he
  · intro h column c hc
    rw [Token.get?_rest hone] at hc
    split at hc
    · cases hc
    · next hcolumn => exact h (column, c) (Dict.mem_of_get?_eq_some hc) hcolumn

theorem accepts_channels_iff : (Token.takeChannels filter).1.accepts channel = true ↔
    ∀ e ∈ filter.columns.entries, e.1 ∈ channelColumns →
      (channel.get? (storedColumn e.1)).any e.2.accepts = true := by
  rw [Where.accepts_iff_of_stored fun column c => Token.get?_channels_iff hone]
  constructor
  · intro h e he hcolumn
    exact h e.1 e.2 ⟨hcolumn, Dict.get?_eq_some_of_mem he⟩
  · rintro h name c ⟨hname, hc⟩
    exact h (name, c) (Dict.mem_of_get?_eq_some hc) hname

theorem accepts_categoryFilter_iff :
    (m.categoryFilter filter).accepts row = true ↔ m.Joins filter row := by
  have hchannels : (Token.takeChannels filter).1.isEmpty = true ↔
      ¬ ∃ column ∈ channelColumns, filter.contains column = true := by
    rw [Token.isEmpty_takeChannels_iff]
    simp
  unfold categoryFilter
  simp only
  split
  · next hempty =>
    rw [accepts_rest_iff hone]
    exact ⟨fun h => ⟨h, fun hgiven => absurd hgiven (hchannels.1 hempty)⟩, fun h => h.category⟩
  · next hgiven =>
    rw [hchannels, not_not] at hgiven
    simp only [accepts_narrowToGroups_iff, accepts_rest_iff hone, mem_findCategoryGroups_iff,
      accepts_channels_iff hone, mem_groupsOf_iff]
    constructor
    · rintro ⟨hcategory, group, ⟨channel, hmem, hmeets, hlisted, hne⟩, hgroup⟩
      exact ⟨hcategory, fun _ => ⟨channel, hmem, hmeets, group, hlisted, hne, hgroup⟩⟩
    · intro h
      obtain ⟨channel, hmem, hmeets, group, hlisted, hne, hgroup⟩ := h.channel hgiven
      exact ⟨h.category, group, ⟨channel, hmem, hmeets, hlisted, hne⟩, hgroup⟩

end OneName

/-! ## The rows found -/

theorem head?_select (columns : List String) (rows : List Row) (w : Where) :
    (select columns rows w).head? = (rows.find? w.accepts).map (project columns) := by
  rw [select, List.head?_map, List.head?_filter]

theorem get?_project {columns : List String} {c : String} (hc : c ∈ columns) (row : Row) :
    (project columns row).get? c = some ((row.get? c).getD "") :=
  Dict.get?_ofList_map (fun c => (row.get? c).getD "") hc

end MemoryStore

namespace Token

theorem column?_checkRows {question : Question} {columns : List String} {w : Where}
    {ask : Where → Except StoreError (List Row)} {rows : List Row} (h : ask w = .ok rows)
    (c : String) :
    (t.checkRows question columns ask w ctx).token.column? c =
      if c ∈ columns then rows.head?.map fun r => (r.get? c).getD "" else none := by
  unfold checkRows
  rw [h]
  exact column?_adopt t columns rows.head? (ctx.asked ⟨question, w⟩ true) c

theorem checkCategory_toStore (m : MemoryStore) (t : Token) (filter : Where) (ctx : Context) :
    ∃ mid, t.checkCategory m.toStore filter ctx =
      t.checkRows .categories categoryColumns m.toStore.categories (m.categoryFilter filter) mid := by
  -- A store in memory does not fail, so in the end there is one question for rows.
  unfold checkCategory MemoryStore.categoryFilter
  simp only
  split
  · exact ⟨ctx, rfl⟩
  · exact ⟨_, rfl⟩

/-- The check of a category holds just if a stored category joins the filter. Then the token has the
columns of the first one. -/
theorem check_category_joins (m : MemoryStore) (t : Token) (filter : Where) (ctx : Context)
    (hone : ¬ (filter.contains "channel" = true ∧ filter.contains "channel_name" = true)) :
    (t.check m.toStore .category filter ctx).answer =
        .ok (decide (∃ row ∈ m.categories, m.Joins filter row)) ∧
      ∀ row, m.categories.find? (fun row => m.Joins filter row) = some row → ∀ column,
        (t.check m.toStore .category filter ctx).token.column? column =
          if column ∈ categoryColumns then some ((row.get? column).getD "") else none := by
  have hjoins : (m.categoryFilter filter).accepts = fun row => decide (m.Joins filter row) := by
    funext row
    rw [Bool.eq_iff_iff, MemoryStore.accepts_categoryFilter_iff hone, decide_eq_true_iff]
  have hrows : m.toStore.categories (m.categoryFilter filter) =
      .ok (m.findCategories (m.categoryFilter filter)) := rfl
  obtain ⟨mid, hcheck⟩ := checkCategory_toStore m t filter ctx
  have hcategory : t.check m.toStore .category filter ctx =
      t.checkRows .categories categoryColumns m.toStore.categories (m.categoryFilter filter) mid :=
    hcheck
  rw [hcategory]
  constructor
  · rw [checkRows_answer hrows, MemoryStore.findCategories, MemoryStore.isEmpty_select, Bool.not_not,
      hjoins]
    congr 1
    rw [Bool.eq_iff_iff, List.any_eq_true, decide_eq_true_iff]
    simp only [decide_eq_true_iff]
  · intro row hrow column
    rw [column?_checkRows hrows, MemoryStore.findCategories, MemoryStore.head?_select, hjoins, hrow]
    split
    · next hcolumn =>
      rw [Option.map_some, Option.map_some, MemoryStore.get?_project hcolumn, Option.getD_some]
    · rfl

theorem check_category_joins_news :
    let go : Row := .ofList [("cat_id", "11"), ("cat_name", "Go"), ("group_id", "3")]
    let m : MemoryStore :=
      { channels :=
          [.ofList [("channel_id", "1"), ("channel_name", "blog"), ("cat_group", "2|5")],
           .ofList [("channel_id", "2"), ("channel_name", "news"), ("cat_group", "|3")],
           .ofList [("channel_id", "3"), ("channel_name", "talk")]]
        categories :=
          [.ofList [("cat_id", "9"), ("cat_name", "Go"), ("group_id", "4")],
           .ofList [("cat_id", "10"), ("cat_name", "Go")], go,
           .ofList [("cat_id", "12"), ("cat_name", "Go"), ("group_id", "5")]] }
    let filter : Where :=
      ((Where.empty.insert "cat_name" (.is "Go")).insert "channel" (.among ["blog", "news"])).insert
        "group_id" (.among ["3", "4"])
    let checked := (Token.new 1 (some "go") none).check m.toStore .category filter (.new "")
    ¬ (filter.contains "channel" = true ∧ filter.contains "channel_name" = true) ∧
      m.categories.find? (fun row => m.Joins filter row) = some go ∧
      checked.answer = .ok true ∧ checked.token.column? "cat_id" = some "11" ∧
      checked.token.column? "cat_image" = some "" ∧ checked.token.column? "status" = none := by
  intro go m filter checked
  have hone : ¬ (filter.contains "channel" = true ∧ filter.contains "channel_name" = true) := by
    decide +kernel
  have hfirst : m.categories.find? (fun row => m.Joins filter row) = some go := by decide +kernel
  have hexists : ∃ row ∈ m.categories, m.Joins filter row :=
    ⟨go, List.mem_of_find?_eq_some hfirst, by simpa using List.find?_some hfirst⟩
  obtain ⟨hanswer, hcolumns⟩ :=
    check_category_joins m (Token.new 1 (some "go") none) filter (.new "") hone
  rw [decide_eq_true hexists] at hanswer
  exact ⟨hone, hfirst, hanswer, hcolumns go hfirst "cat_id", hcolumns go hfirst "cat_image",
    hcolumns go hfirst "status"⟩

end Token

end Signpost
