import Signpost.Proofs.Handler.Globals
import Signpost.Proofs.Token.Asking

/-!
# Outcomes of a check

A check puts its questions in order and ends at the first one that the store fails at. Then the token
and the globals are what they were. If all are answered the columns of the check are globals, whether
a row was found or not; the token has them if one was found. Either way the questions that were
answered are counted, and nothing else of the context changes.
-/

namespace Signpost

variable {store : Store} {ctx : Context} {t : Token} {columns : List String} {call : Call}
  {put : List Call} {checked : Checked} {e : StoreError} {valid : Bool}

/-- The columns that a check exports; a check that puts no question has none. -/
def Check.columns? : Check → Option (List String)
  | .own => none
  | .entryId | .urlTitle | .entry => some entryColumns
  | .categoryId | .categoryUrlTitle | .category => some categoryColumns
  | .memberId | .username | .member => some memberColumns

/-- The kind of the tokens that a shorthand is for. -/
def Check.kind? : Check → Option Kind
  | .entryId => some .entryId
  | .urlTitle => some .urlTitle
  | .categoryId => some .categoryId
  | .categoryUrlTitle => some .categoryUrlTitle
  | .memberId => some .memberId
  | .username => some .username
  | .own | .entry | .category | .member => none

theorem Check.kind?_of_check? {c : Check} {k : Kind} (h : k.check? = some c) :
    c.kind? = some k := by
  cases k <;> cases h <;> rfl

theorem Check.exists_columns? {c : Check} (h : c ≠ .own) : ∃ columns, c.columns? = some columns := by
  cases c
  case own => exact absurd rfl h
  all_goals exact ⟨_, rfl⟩

namespace Token

/-! ## What an outcome leaves behind -/

/-- The columns after an answer: all of them are globals, the token has them if the answer was true,
and it has no others. -/
structure ShowsAnswer (t : Token) (columns : List String) (valid : Bool) (before : Names String)
    (checked : Checked) : Prop where
  others : ∀ key, (∀ c ∈ columns, key ≠ t.columnGlobal c) →
    checked.context.globals.get? key = before.get? key
  shown : ∀ c ∈ columns, ∃ v, checked.context.globals.get? (t.columnGlobal c) = some v ∧
    checked.token.column? c = if valid then some v else none
  hidden : ∀ c, c ∉ columns → checked.token.column? c = none

/-- What a check that put some questions has left behind. -/
structure Settles (store : Store) (t : Token) (columns : List String) (put : List Call)
    (ctx : Context) (checked : Checked) : Prop where
  asked : ctx.AfterCalls store put checked.context
  context : { checked.context with
    globals := ctx.globals, lookups := ctx.lookups, calls := ctx.calls } = ctx
  token : { checked.token with columns := t.columns } = t
  failed : ∀ e, checked.answer = .error e → put.getLast?.bind store.failure? = some e ∧
    checked.token = t ∧ checked.context.globals = ctx.globals
  answered : ∀ valid, checked.answer = .ok valid →
    checked.context.lookups = ctx.lookups + put.length ∧
      ShowsAnswer t columns valid ctx.globals checked

theorem showsAnswer_adopt (t : Token) (columns : List String) (row : Option Row) (ctx : Context) :
    ShowsAnswer t columns row.isSome ctx.globals
      ⟨.ok row.isSome, (t.adopt columns row ctx).1, (t.adopt columns row ctx).2⟩ where
  others _ hkey := get?_globals_adopt_ne hkey row ctx
  shown c hc := by
    refine ⟨_, get?_globals_adopt hc t row ctx, (column?_adopt t columns row ctx c).trans ?_⟩
    rw [if_pos hc]
    cases row <;> rfl
  hidden c hc := (column?_adopt t columns row ctx c).trans (if_neg hc)

theorem adopt_frame (t : Token) (columns : List String) (row : Option Row) (ctx : Context)
    (globals : Names String) :
    { (t.adopt columns row ctx).2 with globals } = { ctx with globals } :=
  Context.globals_foldl_setGlobal ..

/-! ## One question -/

theorem settles_failed (h : store.failure? call = some e) :
    Settles store t columns [call] ctx ⟨.error e, t, ctx.asked call false⟩ where
  asked := by
    have hasked := Context.AfterCalls.asked store call ctx
    rwa [Store.fails, h] at hasked
  context := rfl
  token := rfl
  failed e' he := by
    cases he
    exact ⟨h, rfl, rfl⟩
  answered _ hvalid := nomatch hvalid

theorem settles_found (h : store.failure? call = none) (row : Option Row) :
    Settles store t columns [call] ctx
      ⟨.ok row.isSome, (t.adopt columns row (ctx.asked call true)).1,
        (t.adopt columns row (ctx.asked call true)).2⟩ where
  asked := by
    have hasked := Context.AfterCalls.asked store call ctx
    rw [Store.fails, h] at hasked
    exact hasked.of_globals ctx.globals (adopt_frame ..)
  context := congrArg
    (fun c : Context => { c with lookups := ctx.lookups, calls := ctx.calls })
    (adopt_frame t columns row (ctx.asked call true) ctx.globals)
  token := rfl
  failed _ he := nomatch he
  answered valid hvalid := by
    cases hvalid
    have hframe := adopt_frame t columns row (ctx.asked call true) ctx.globals
    exact ⟨congrArg Context.lookups hframe, showsAnswer_adopt t columns row (ctx.asked call true)⟩

theorem settles_checkRows {question : Question} {filter : Where}
    {ask : Where → Except StoreError (List Row)}
    (hask : store.failure? ⟨question, filter⟩ = Store.failure?.ofAnswer (ask filter)) :
    Settles store t columns [⟨question, filter⟩] ctx
      (t.checkRows question columns ask filter ctx) := by
  unfold checkRows
  cases hrows : ask filter with
  | error e =>
    rw [hrows] at hask
    exact settles_failed hask
  | ok rows =>
    rw [hrows] at hask
    exact settles_found hask rows.head?

/-! ## More than one -/

/-- A question that was answered before is counted, and has no other say. -/
theorem Settles.after (hcall : store.failure? call = none)
    (h : Settles store t columns put (ctx.asked call true) checked) :
    Settles store t columns (call :: put) ctx checked where
  asked := by
    have hasked := Context.AfterCalls.asked store call ctx
    rw [Store.fails, hcall] at hasked
    exact hasked.trans h.asked
  context := congrArg
    (fun c : Context => { c with lookups := ctx.lookups, calls := ctx.calls }) h.context
  token := h.token
  failed e he := by
    obtain ⟨hlast, htoken, hglobals⟩ := h.failed e he
    obtain ⟨last, hput, hfailure⟩ := Option.bind_eq_some_iff.1 hlast
    refine ⟨?_, htoken, hglobals⟩
    rw [List.getLast?_cons, hput]
    exact hfailure
  answered valid hvalid := by
    obtain ⟨hlookups, hshows⟩ := h.answered valid hvalid
    have hone : (ctx.asked call true).lookups = ctx.lookups + 1 := rfl
    refine ⟨?_, hshows⟩
    rw [hlookups, hone, List.length_cons, Nat.add_assoc, Nat.add_comm 1]

/-- The questions of a check on categories: for the groups of the channels, where the filter has
constraints on channels, and for the rows. -/
def categoryQuestions (store : Store) (filter : Where) : List Call :=
  let (channels, rest) := takeChannels filter
  if channels.isEmpty then [⟨.categories, rest⟩]
  else
    match store.categoryGroups channels with
    | .error _ => [⟨.categoryGroups, channels⟩]
    | .ok groups =>
      [⟨.categoryGroups, channels⟩, ⟨.categories, narrowToGroups rest groups⟩]

theorem settles_checkCategory (store : Store) (t : Token) (filter : Where) (ctx : Context) :
    Settles store t categoryColumns (categoryQuestions store filter) ctx
      (t.checkCategory store filter ctx) := by
  unfold checkCategory categoryQuestions
  simp only
  split
  · exact settles_checkRows rfl
  · cases hgroups : store.categoryGroups (takeChannels filter).1 with
    | error e =>
      have hfailure : store.failure? ⟨.categoryGroups, (takeChannels filter).1⟩ = some e :=
        congrArg Store.failure?.ofAnswer hgroups
      exact settles_failed hfailure
    | ok groups =>
      have hnone : store.failure? ⟨.categoryGroups, (takeChannels filter).1⟩ = none :=
        congrArg Store.failure?.ofAnswer hgroups
      exact .after hnone (settles_checkRows rfl)

/-! ## All checks -/

/-- The check that is made in the end: for the check of its own the shorthand for the token's kind. -/
def Makes (t : Token) (c made : Check) : Prop :=
  if c = .own then made.kind?.isSome ∧ made.kind? = t.kind else made = c

/-- The questions of a check, up to the first that the store fails at. -/
def questions (store : Store) (t : Token) (filter : Where) : Check → List Call
  | .own => []
  | .entryId => [⟨.entries, t.bound filter "entry_id"⟩]
  | .urlTitle => [⟨.entries, t.bound filter "url_title"⟩]
  | .entry => [⟨.entries, filter⟩]
  | .categoryId => categoryQuestions store (t.bound filter "cat_id")
  | .categoryUrlTitle => categoryQuestions store (t.bound filter "cat_url_title")
  | .category => categoryQuestions store filter
  | .memberId => [⟨.members, t.bound filter "member_id"⟩]
  | .username => [⟨.members, t.bound filter "username"⟩]
  | .member => [⟨.members, filter⟩]

theorem check_of_unneeded (h : t.kind.any Kind.needsStore = false) (store : Store) (filter : Where)
    (ctx : Context) : t.check store .own filter ctx = ⟨.ok true, t, ctx⟩ := by
  have hnone : t.kind.bind Kind.check? = none := by
    cases hkind : t.kind with
    | none => rfl
    | some k =>
      rw [hkind, Option.any_some, ← k.check?_isSome] at h
      exact Option.isNone_iff_eq_none.1 (Option.isSome_eq_false_iff.1 h)
  simp only [check, hnone, Option.getD_none, checkAs]

theorem exists_makes {c : Check} (h : ¬(c = .own ∧ t.kind.any Kind.needsStore = false)) (store : Store)
    (filter : Where) (ctx : Context) :
    ∃ made, t.Makes c made ∧ made ≠ .own ∧
      t.check store c filter ctx = t.checkAs store made filter ctx := by
  by_cases hown : c = .own
  · have hneeds : t.kind.any Kind.needsStore = true :=
      Bool.of_not_eq_false fun hfalse => h ⟨hown, hfalse⟩
    obtain ⟨k, hk, hneeds⟩ := (Option.any_eq_true ..).1 hneeds
    obtain ⟨made, hmade⟩ := Option.isSome_iff_exists.1 (k.check?_isSome.trans hneeds)
    have hkind := Check.kind?_of_check? hmade
    refine ⟨made, ?_, ?_, ?_⟩
    · rw [Makes, if_pos hown, hkind, hk]
      exact ⟨rfl, rfl⟩
    · rintro rfl
      cases hkind
    · rw [hown]
      simp only [check, hk, Option.bind_some, hmade, Option.getD_some]
  · refine ⟨c, by rw [Makes, if_neg hown], hown, ?_⟩
    cases c
    case own => exact absurd rfl hown
    all_goals rfl

theorem settles_checkAs {c : Check} (h : c.columns? = some columns) (store : Store) (t : Token)
    (filter : Where) (ctx : Context) :
    Settles store t columns (t.questions store filter c) ctx (t.checkAs store c filter ctx) := by
  cases c <;> cases h
  case entryId | urlTitle | entry => exact settles_checkRows rfl
  case memberId | username | member => exact settles_checkRows rfl
  case categoryId | categoryUrlTitle | category => exact settles_checkCategory ..

/-- A check that the store has no say in changes nothing. Every other check puts its questions and
settles them: a failure leaves the token and all but the count of the answers as it was, and an answer
shows the columns of the check. -/
theorem check_settles (store : Store) (t : Token) (c : Check) (filter : Where) (ctx : Context) :
    if c = .own ∧ t.kind.any Kind.needsStore = false then
      t.check store c filter ctx = ⟨.ok true, t, ctx⟩
    else
      ∃ made columns, t.Makes c made ∧ made.columns? = some columns ∧
        Settles store t columns (t.questions store filter made) ctx
          (t.check store c filter ctx) := by
  split
  · next hnone =>
    rw [hnone.1]
    exact check_of_unneeded hnone.2 store filter ctx
  · next hsome =>
    obtain ⟨made, hmakes, hmade, heq⟩ := exists_makes hsome store filter ctx
    obtain ⟨columns, hcolumns⟩ := Check.exists_columns? hmade
    rw [heq]
    exact ⟨made, columns, hmakes, hcolumns, settles_checkAs hcolumns store t filter ctx⟩

end Token

end Signpost
