import Signpost.Proofs.Store.Entries
import Signpost.Proofs.Token.Narrowing
import Signpost.Proofs.Token.Outcomes

/-!
# Constraints on channels

Rows of categories have no channel. So a check on categories takes the constraints on channels out of
the filter, asks for the groups of these channels, and then for rows in these groups. A channel may
go by two names in a filter. If it goes by both at once, the constraint on the column with its name
stays behind in the filter for rows and has no say in the groups.
-/

namespace Signpost.Token

variable {store : Store} {t : Token} {filter : Where} {ctx : Context} {column : String}
  {c : Constraint}

/-! ## What is taken out -/

theorem takeChannels_eq (filter : Where) : takeChannels filter =
    ((Where.empty.adding "channel_name"
        ((filter.get? "channel").or (filter.get? "channel_name"))).adding "channel_id"
        (filter.get? "channel_id"),
      (filter.erase (if filter.contains "channel" then "channel" else "channel_name")).erase
        "channel_id") := by
  have hid : ∀ name ≠ "channel_id",
      (filter.erase name).get? "channel_id" = filter.get? "channel_id" :=
    fun name hname => Where.get?_erase_ne hname.symm filter
  cases hchannel : filter.get? "channel" with
  | none =>
    have hnone : filter.contains "channel" = false := congrArg Option.isSome hchannel
    simp only [takeChannels, Where.take, hchannel, hid "channel_name" (by decide), hnone]
    cases filter.get? "channel_name" <;> cases filter.get? "channel_id" <;> rfl
  | some channel =>
    have hsome : filter.contains "channel" = true := congrArg Option.isSome hchannel
    simp only [takeChannels, Where.take, hchannel, hid "channel" (by decide), hsome]
    cases filter.get? "channel_id" <;> rfl

theorem get?_takeChannels_fst (filter : Where) (column : String) :
    (takeChannels filter).1.get? column =
      if column = "channel_id" then filter.get? "channel_id"
      else if column = "channel_name" then (filter.get? "channel").or (filter.get? "channel_name")
      else none := by
  have hempty : Where.empty.get? column = none := rfl
  simp only [takeChannels_eq, Where.get?_adding, hempty, Option.or_none]
  split
  · next hcolumn =>
    subst hcolumn
    simp
  · rfl

theorem get?_takeChannels_snd (filter : Where) (column : String) :
    (takeChannels filter).2.get? column =
      if column = "channel_name" ∧ filter.contains "channel" = true then filter.get? "channel_name"
      else if column ∈ channelColumns then none else filter.get? column := by
  simp only [takeChannels_eq, Where.get?_erase, channelColumns, List.mem_cons, List.not_mem_nil,
    or_false]
  cases hchannel : filter.contains "channel" with
  | false =>
    have hnone : filter.get? "channel" = none :=
      Option.not_isSome_iff_eq_none.1 (Bool.eq_false_iff.1 hchannel)
    grind
  | true => grind

theorem isEmpty_takeChannels_iff :
    (takeChannels filter).1.isEmpty = true ↔
      ∀ column ∈ channelColumns, filter.contains column = false := by
  simp only [Where.isEmpty_iff, get?_takeChannels_fst, channelColumns, Where.contains_eq,
    List.forall_mem_cons, List.not_mem_nil, false_imp_iff, implies_true, and_true,
    Option.isSome_eq_false_iff, Option.isNone_iff_eq_none]
  constructor
  · intro h
    have hname := h "channel_name"
    rw [if_neg (by decide), if_pos rfl, Option.or_eq_none_iff] at hname
    exact ⟨hname.1, hname.2, by simpa using h "channel_id"⟩
  · rintro ⟨hchannel, hname, hid⟩ column
    simp [hchannel, hname, hid]

section OneName

variable (hone : ¬ (filter.contains "channel" = true ∧ filter.contains "channel_name" = true))

include hone

theorem get?_rest (column : String) : (takeChannels filter).2.get? column =
    if column ∈ channelColumns then none else filter.get? column := by
  rw [get?_takeChannels_snd]
  split
  · next hboth =>
    obtain ⟨rfl, hchannel⟩ := hboth
    have hnone : filter.get? "channel_name" = none := by
      simpa [Where.contains_eq] using fun hname => hone ⟨hchannel, hname⟩
    rw [hnone, ite_self]
  · rfl

theorem get?_channels_iff : (takeChannels filter).1.get? column = some c ↔
    ∃ name, storedColumn name = column ∧ name ∈ channelColumns ∧ filter.get? name = some c := by
  have hor : (filter.get? "channel").or (filter.get? "channel_name") = some c ↔
      filter.get? "channel" = some c ∨ filter.get? "channel_name" = some c := by
    rw [Where.contains_eq, Where.contains_eq] at hone
    cases hchannel : filter.get? "channel" with
    | none => simp
    | some channel =>
      rw [hchannel] at hone
      have hnone : filter.get? "channel_name" = none := by simpa using hone
      simp [hnone]
  rw [get?_takeChannels_fst]
  constructor
  · intro hc
    split at hc
    · next hcolumn => exact ⟨"channel_id", hcolumn.symm, by decide, hc⟩
    · split at hc
      · next hcolumn =>
        rcases hor.1 hc with hc | hc
        · exact ⟨"channel", hcolumn.symm, by decide, hc⟩
        · exact ⟨"channel_name", hcolumn.symm, by decide, hc⟩
      · cases hc
  · rintro ⟨name, rfl, hname, hc⟩
    simp only [channelColumns, List.mem_cons, List.not_mem_nil, or_false] at hname
    rcases hname with rfl | rfl | rfl
    · exact hor.2 (.inl hc)
    · exact hor.2 (.inr hc)
    · exact hc

end OneName

/-! ## What is asked -/

/-- Whether a check on categories keeps the constraints on channels apart: it asks for rows with none
of them, and each of them is part of its question for the groups. -/
def KeepsApart (store : Store) (t : Token) (filter : Where) (ctx : Context) : Prop :=
  ∀ put, (t.check store .category filter ctx).context.calls = ctx.calls ++ put →
    ∀ rows, ⟨.categories, rows⟩ ∈ put → ∀ column ∈ channelColumns,
      rows.get? column = none ∧ ∀ c, filter.get? column = some c →
        ∃ channels, ⟨.categoryGroups, channels⟩ ∈ put ∧
          channels.get? (storedColumn column) = some c

theorem calls_check_category (store : Store) (t : Token) (filter : Where) (ctx : Context) :
    (t.check store .category filter ctx).context.calls =
      ctx.calls ++ categoryQuestions store filter :=
  (settles_checkCategory store t filter ctx).asked.calls

theorem rows_mem_questions_iff {rows : Where} :
    ⟨.categories, rows⟩ ∈ categoryQuestions store filter ↔
      if (takeChannels filter).1.isEmpty then rows = (takeChannels filter).2
      else ∃ groups, store.categoryGroups (takeChannels filter).1 = .ok groups ∧
        rows = narrowToGroups (takeChannels filter).2 groups := by
  unfold categoryQuestions
  simp only
  split
  · simp
  · cases store.categoryGroups (takeChannels filter).1 <;> simp

theorem groups_mem_questions_iff {channels : Where} :
    ⟨.categoryGroups, channels⟩ ∈ categoryQuestions store filter ↔
      (takeChannels filter).1.isEmpty = false ∧ channels = (takeChannels filter).1 := by
  unfold categoryQuestions
  simp only
  split
  · next hempty => simp [hempty]
  · next hempty => cases store.categoryGroups (takeChannels filter).1 <;> simp [hempty]

theorem get?_narrowToGroups (h : column ≠ "group_id") (filter : Where) (groups : List String) :
    (narrowToGroups filter groups).get? column = filter.get? column :=
  Where.get?_insert_ne h filter _

theorem answers_groups_iff {channels : Where} :
    store.fails ⟨.categoryGroups, channels⟩ = false ↔
      ∃ groups, store.categoryGroups channels = .ok groups := by
  rw [Store.fails, Store.failure?]
  cases store.categoryGroups channels <;> simp [Store.failure?.ofAnswer]

theorem apart_of_oneName
    (hone : ¬ (filter.contains "channel" = true ∧ filter.contains "channel_name" = true))
    {rows : Where} (hrows : ⟨.categories, rows⟩ ∈ categoryQuestions store filter)
    (hcolumn : column ∈ channelColumns) :
    rows.get? column = none ∧ ∀ c, filter.get? column = some c →
      ∃ channels, ⟨.categoryGroups, channels⟩ ∈ categoryQuestions store filter ∧
        channels.get? (storedColumn column) = some c := by
  have hgroup : column ≠ "group_id" := by
    rintro rfl
    revert hcolumn
    decide
  have hrest : (takeChannels filter).2.get? column = none := by
    rw [get?_rest hone, if_pos hcolumn]
  rw [rows_mem_questions_iff] at hrows
  split at hrows
  · next hempty =>
    refine ⟨hrows ▸ hrest, fun c hc => ?_⟩
    have hnone := isEmpty_takeChannels_iff.1 hempty column hcolumn
    rw [Where.contains_eq, hc] at hnone
    cases hnone
  · next hput =>
    obtain ⟨groups, -, rfl⟩ := hrows
    refine ⟨(get?_narrowToGroups hgroup ..).trans hrest, fun c hc => ?_⟩
    exact ⟨_, groups_mem_questions_iff.2 ⟨Bool.eq_false_iff.2 hput, rfl⟩,
      (get?_channels_iff hone).2 ⟨column, rfl, hcolumn, hc⟩⟩

/-- Constraints on channels are kept apart, unless the filter has both names of a channel and the
store does not fail at the question for the groups. -/
theorem keepsApart_iff (store : Store) (t : Token) (filter : Where) (ctx : Context) :
    KeepsApart store t filter ctx ↔
      (filter.contains "channel" = true ∧ filter.contains "channel_name" = true →
        store.fails ⟨.categoryGroups, (takeChannels filter).1⟩ = true) := by
  constructor
  · rintro hapart ⟨hchannel, hname⟩
    by_contra hfails
    obtain ⟨groups, hgroups⟩ := answers_groups_iff.1 (Bool.eq_false_iff.2 hfails)
    have hput : (takeChannels filter).1.isEmpty ≠ true := fun hempty => by
      rw [isEmpty_takeChannels_iff.1 hempty "channel" (by decide)] at hchannel
      cases hchannel
    have hrows : ⟨.categories, narrowToGroups (takeChannels filter).2 groups⟩ ∈
        categoryQuestions store filter :=
      rows_mem_questions_iff.2 ((if_neg hput).mpr ⟨groups, hgroups, rfl⟩)
    -- The name of the channel stays in what the rows are asked for.
    have hleft := (hapart _ (calls_check_category ..) _ hrows "channel_name" (by decide)).1
    rw [get?_narrowToGroups (by decide), get?_takeChannels_snd, if_pos ⟨rfl, hchannel⟩] at hleft
    rw [Where.contains_eq, hleft] at hname
    cases hname
  · intro hfails put hcalls rows hrows column hcolumn
    obtain rfl : categoryQuestions store filter = put :=
      List.append_cancel_left ((calls_check_category ..).symm.trans hcalls)
    refine apart_of_oneName (fun hboth => ?_) hrows hcolumn
    -- The store failed before rows were asked for.
    rw [rows_mem_questions_iff, if_neg] at hrows
    · obtain ⟨groups, hgroups, -⟩ := hrows
      rw [answers_groups_iff.2 ⟨groups, hgroups⟩] at hfails
      cases hfails hboth
    · intro hempty
      rw [isEmpty_takeChannels_iff.1 hempty "channel" (by decide)] at hboth
      cases hboth.1

/-- A filter with both names of a channel leaves one of them in the question for rows, so a category
in a group of that very channel is not found. -/
theorem not_keepsApart_twoNames :
    let m : MemoryStore :=
      { channels := [.ofList [("channel_name", "blog"), ("cat_group", "2")]]
        categories := [.ofList [("cat_id", "9"), ("group_id", "2")]] }
    let filter : Where :=
      (Where.empty.insert "channel" (.is "blog")).insert "channel_name" (.is "blog")
    let t : Token := .new 1 (some "9") none
    ¬ KeepsApart m.toStore t filter (.new "") ∧
      (t.check m.toStore .category filter (.new "")).answer = .ok false := by
  intro m filter t
  refine ⟨fun hapart => ?_, by decide +kernel⟩
  have hcalls : (t.check m.toStore .category filter (.new "")).context.calls =
      [⟨.categoryGroups, Where.empty.insert "channel_name" (.is "blog")⟩,
        ⟨.categories, (Where.empty.insert "channel_name" (.is "blog")).insert "group_id"
          (.among ["2"])⟩] := by decide +kernel
  have hleft := (hapart _ hcalls _ (List.mem_cons_of_mem _ List.mem_cons_self) "channel_name"
    (by decide)).1
  revert hleft
  decide +kernel

end Signpost.Token
