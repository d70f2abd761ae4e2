import Signpost.Proofs.Store.Filters
import Signpost.Proofs.Token.Checking

/-!
# Narrowing a check

The shorthands bind the text of a token to a column of a filter that the caller gives. For a store
in memory such a check holds if a row has the text in the column and meets what the filter asks of
the other columns. What the filter asks of that very column is lost.
-/

namespace Signpost

/-- Columns of channels, which a filter on categories is not asked with. -/
def channelColumns : List String := ["channel", "channel_name", "channel_id"]

/-- What a shorthand asks for, and the column that it binds the text of the token to. -/
structure Shorthand where
  question : Question
  column : String
  deriving DecidableEq, Repr

def Check.shorthand? : Check → Option Shorthand
  | .entryId => some ⟨.entries, "entry_id"⟩
  | .urlTitle => some ⟨.entries, "url_title"⟩
  | .categoryId => some ⟨.categories, "cat_id"⟩
  | .categoryUrlTitle => some ⟨.categories, "cat_url_title"⟩
  | .memberId => some ⟨.members, "member_id"⟩
  | .username => some ⟨.members, "username"⟩
  | .own | .entry | .category | .member => none

/-- The stored rows that a question is about. -/
def MemoryStore.rowsFor (m : MemoryStore) : Question → List Row
  | .entries => m.entries
  | .categories => m.categories
  | .members => m.members
  | .categoryGroups => m.channels

namespace Token

variable {m : MemoryStore} {t : Token} {c : Check} {s : Shorthand} {filter : Where} {ctx : Context}

/-! ## Checks against a store in memory -/

theorem takeChannels_of_none (h : ∀ column ∈ channelColumns, filter.get? column = none) :
    takeChannels filter = (.empty, filter) := by
  have htake : ∀ column ∈ channelColumns, filter.take column = (none, filter) := by
    intro column hcolumn
    rw [Where.take, h column hcolumn, Where.erase_eq_self (h column hcolumn)]
  simp only [takeChannels, htake "channel" (by decide), htake "channel_name" (by decide),
    htake "channel_id" (by decide)]

theorem checkEntry_answer (h : ∀ column ∈ channelColumns, filter.get? column = none) :
    (t.checkEntry m.toStore filter ctx).answer = .ok (m.entries.any filter.accepts) := by
  have hrows : m.toStore.entries filter =
      .ok (MemoryStore.select entryColumns m.entries filter) := by
    have hname := MemoryStore.nameChannel_eq_self (h "channel" (by decide))
    exact congrArg (fun w => Except.ok (MemoryStore.select entryColumns m.entries w)) hname
  rw [checkEntry, checkRows_answer hrows, MemoryStore.isEmpty_select, Bool.not_not]

theorem checkCategory_answer (h : ∀ column ∈ channelColumns, filter.get? column = none) :
    (t.checkCategory m.toStore filter ctx).answer = .ok (m.categories.any filter.accepts) := by
  have hrows : m.toStore.categories filter =
      .ok (MemoryStore.select categoryColumns m.categories filter) := rfl
  have hask : t.checkCategory m.toStore filter ctx =
      t.checkRows .categories categoryColumns m.toStore.categories filter ctx := by
    rw [checkCategory, takeChannels_of_none h]
    rfl
  rw [hask, checkRows_answer hrows, MemoryStore.isEmpty_select, Bool.not_not]

theorem checkMember_answer :
    (t.checkMember m.toStore filter ctx).answer = .ok (m.members.any filter.accepts) := by
  have hrows : m.toStore.members filter =
      .ok (MemoryStore.select memberColumns m.members filter) := rfl
  rw [checkMember, checkRows_answer hrows, MemoryStore.isEmpty_select, Bool.not_not]

/-! ## Shorthands -/

theorem column_notMem (h : c.shorthand? = some s) : s.column ∉ channelColumns := by
  cases c <;> cases h <;> decide

theorem check_answer_bound (h : c.shorthand? = some s)
    (hfilter : ∀ column ∈ channelColumns, filter.get? column = none) :
    (t.check m.toStore c filter ctx).answer =
      .ok ((m.rowsFor s.question).any (t.bound filter s.column).accepts) := by
  have hbound : ∀ column ∈ channelColumns, (t.bound filter s.column).get? column = none := by
    intro column hcolumn
    have hne : column ≠ s.column := fun heq => column_notMem h (heq ▸ hcolumn)
    rw [bound, Where.get?_insert_ne hne, hfilter column hcolumn]
  cases c <;> cases h
  case entryId | urlTitle => exact checkEntry_answer hbound
  case categoryId | categoryUrlTitle => exact checkCategory_answer hbound
  case memberId | username => exact checkMember_answer

/-- Whether a row has the text of the token in a column and meets a filter on all other columns. -/
def finds (t : Token) (column : String) (filter : Where) (row : Row) : Bool :=
  row.get? column == some t.text && (filter.erase column).accepts row

theorem accepts_bound (t : Token) (filter : Where) (column : String) :
    (t.bound filter column).accepts = t.finds column filter := by
  funext row
  rw [bound, Where.accepts_insert, finds]
  congr 1
  cases row.get? column with
  | none => rfl
  | some value => simp [Constraint.accepts, BEq.comm]

theorem check_answer_finds (h : c.shorthand? = some s)
    (hfilter : ∀ column ∈ channelColumns, filter.get? column = none) :
    (t.check m.toStore c filter ctx).answer =
      .ok ((m.rowsFor s.question).any (t.finds s.column filter)) := by
  rw [check_answer_bound h hfilter, accepts_bound]

/-- If the check holds, some stored row has the text of the token in its column and meets the whole
filter. -/
def Narrows (m : MemoryStore) (t : Token) (c : Check) (filter : Where) (ctx : Context) : Prop :=
  ∀ s, c.shorthand? = some s → (t.check m.toStore c filter ctx).answer = .ok true →
    ∃ row ∈ m.rowsFor s.question,
      row.get? s.column = some t.text ∧ filter.accepts row = true

/-- A shorthand holds just if a row has the text of the token and meets the filter on the other
columns. So it narrows the filter, unless it holds for a text that the filter does not accept on the
column of the token. -/
theorem narrows_iff (h : c.shorthand? = some s)
    (hfilter : ∀ column ∈ channelColumns, filter.get? column = none) :
    (t.check m.toStore c filter ctx).answer =
        .ok ((m.rowsFor s.question).any (t.finds s.column filter)) ∧
      (Narrows m t c filter ctx ↔ ((t.check m.toStore c filter ctx).answer = .ok true →
        ∀ own, filter.get? s.column = some own → own.accepts t.text = true)) := by
  have haccepts : ∀ row : Row, filter.accepts row = true ↔
      (∀ own, filter.get? s.column = some own → (row.get? s.column).any own.accepts = true) ∧
        (filter.erase s.column).accepts row = true :=
    fun row => Where.accepts_iff_erase fun _ _ => rfl
  refine ⟨check_answer_finds h hfilter, fun hnarrows htrue own hown => ?_,
    fun hown s' h' htrue => ?_⟩
  · obtain ⟨row, -, htext, hrow⟩ := hnarrows s h htrue
    have hmeets := ((haccepts row).1 hrow).1 own hown
    rwa [htext] at hmeets
  · obtain rfl : s = s' := Option.some.inj (h.symm.trans h')
    have hany := htrue
    rw [check_answer_finds h hfilter, Except.ok.injEq, List.any_eq_true] at hany
    obtain ⟨row, hmem, hfinds⟩ := hany
    rw [finds, Bool.and_eq_true, beq_iff_eq] at hfinds
    refine ⟨row, hmem, hfinds.1, (haccepts row).2 ⟨fun own hget => ?_, hfinds.2⟩⟩
    rw [hfinds.1]
    exact hown htrue own hget

theorem narrows_username :
    let m : MemoryStore := { members := [.ofList [("username", "ann"), ("group_id", "5")]] }
    let filter : Where :=
      (Where.empty.insert "group_id" (.among ["4", "5"])).insert "username" (.among ["ann", "joe"])
    let t : Token := .new 1 (some "ann") none
    Check.shorthand? .username = some ⟨.members, "username"⟩ ∧
      (∀ column ∈ channelColumns, filter.get? column = none) ∧
      (t.check m.toStore .username filter (.new "")).answer = .ok true ∧
      Narrows m t .username filter (.new "") := by
  intro m filter t
  have hfilter : ∀ column ∈ channelColumns, filter.get? column = none := by decide +kernel
  have hown : filter.get? "username" = some (.among ["ann", "joe"]) := by decide +kernel
  have hfinds : m.members.any (t.finds "username" filter) = true := by decide +kernel
  have hshorthand : Check.shorthand? .username = some ⟨.members, "username"⟩ := rfl
  obtain ⟨hanswer, hnarrows⟩ :
      _ ∧ (Narrows m t .username filter (.new "") ↔ _) := narrows_iff hshorthand hfilter
  refine ⟨rfl, hfilter, hanswer.trans (congrArg Except.ok hfinds), hnarrows.2 fun _ own h => ?_⟩
  obtain rfl := Option.some.inj (hown.symm.trans h)
  decide

/-- An entry is found by its number although the filter asks for another number. -/
theorem not_narrows_entryId :
    let m : MemoryStore := { entries := [.ofList [("entry_id", "7")]] }
    let filter : Where := Where.empty.insert "entry_id" (.is "8")
    let t : Token := .new 1 (some "7") none
    (∀ column ∈ channelColumns, filter.get? column = none) ∧
      (t.check m.toStore .entryId filter (.new "")).answer = .ok true ∧
      ¬ Narrows m t .entryId filter (.new "") := by
  intro m filter t
  have hfilter : ∀ column ∈ channelColumns, filter.get? column = none := by decide +kernel
  have hfinds : m.entries.any (t.finds "entry_id" filter) = true := by decide +kernel
  have hshorthand : Check.shorthand? .entryId = some ⟨.entries, "entry_id"⟩ := rfl
  have htrue : (t.check m.toStore .entryId filter (.new "")).answer = .ok true :=
    (check_answer_finds hshorthand hfilter).trans (congrArg Except.ok hfinds)
  have hnone : ∀ row ∈ m.entries, filter.accepts row = false := by decide +kernel
  refine ⟨hfilter, htrue, fun hnarrows => ?_⟩
  obtain ⟨row, hmem, -, hrow⟩ := hnarrows _ hshorthand htrue
  rw [hnone row hmem] at hrow
  cases hrow

end Token

end Signpost
