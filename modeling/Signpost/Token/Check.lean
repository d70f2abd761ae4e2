import Signpost.Token.Basic

/-!
# Checking tokens against the store

A check asks the store for rows and keeps the columns of the first one: on the token, and in the
globals. A check that fails leaves the token and the globals as they were.
-/

namespace Signpost

inductive Check
  /-- What the kind of the token asks for. -/
  | own
  | entryId
  | urlTitle
  | categoryId
  | categoryUrlTitle
  | memberId
  | username
  | entry
  | category
  | member
  deriving DecidableEq, Repr

/-- The check for a kind; kinds that the store does not have to confirm have none. -/
def Kind.check? : Kind → Option Check
  | .entryId => some .entryId
  | .urlTitle => some .urlTitle
  | .categoryId => some .categoryId
  | .categoryUrlTitle => some .categoryUrlTitle
  | .memberId => some .memberId
  | .username => some .username
  | _ => none

theorem Kind.check?_isSome (k : Kind) : k.check?.isSome = k.needsStore := by cases k <;> rfl

/-- What a check gives: its answer, and the token and the context after it. -/
structure Checked where
  answer : Except StoreError Bool
  token : Token
  context : Context

namespace Token

/-- The columns of a row, or as many absent values if there is no row. -/
def columnsOf (columns : List String) (row : Option Row) : Names (Option String) :=
  .ofList (columns.map fun c => (c, row.map fun r => (r.get? c).getD ""))

/-- Keeps the columns of a row, on the token and in the globals. -/
def adopt (t : Token) (columns : List String) (row : Option Row) (ctx : Context) :
    Token × Context :=
  let found := columnsOf columns row
  ({ t with columns := some found },
   found.entries.foldl (fun ctx (c, v) => ctx.setGlobal (t.columnGlobal c) (v.getD "")) ctx)

/-- Asks for rows, and is content with the first. -/
def checkRows (t : Token) (question : Question) (columns : List String)
    (ask : Where → Except StoreError (List Row)) (filter : Where) (ctx : Context) : Checked :=
  match ask filter with
  | .error e => ⟨.error e, t, ctx.asked ⟨question, filter⟩ false⟩
  | .ok rows =>
    let (t, ctx) := t.adopt columns rows.head? (ctx.asked ⟨question, filter⟩ true)
    ⟨.ok rows.head?.isSome, t, ctx⟩

def checkEntry (store : Store) (t : Token) (filter : Where) (ctx : Context) : Checked :=
  t.checkRows .entries entryColumns store.entries filter ctx

def checkMember (store : Store) (t : Token) (filter : Where) (ctx : Context) : Checked :=
  t.checkRows .members memberColumns store.members filter ctx

/-- The constraints on channels that a filter on categories holds, and the filter without them. -/
def takeChannels (filter : Where) : Where × Where :=
  let (name, filter) :=
    match filter.take "channel" with
    | (some c, rest) => (some c, rest)
    | (none, _) => filter.take "channel_name"
  let (id, filter) := filter.take "channel_id"
  let channels := match name with
    | some c => Where.empty.insert "channel_name" c
    | none => .empty
  let channels := match id with
    | some c => channels.insert "channel_id" c
    | none => channels
  (channels, filter)

/-- Narrows a filter on categories to some groups, and to those it asks for itself. -/
def narrowToGroups (filter : Where) (groups : List String) : Where :=
  let groups := match filter.get? "group_id" with
    | some c => groups.filter c.accepts
    | none => groups
  filter.insert "group_id" (.among groups)

/-- Constraints on channels are turned into the category groups of these channels first. -/
def checkCategory (store : Store) (t : Token) (filter : Where) (ctx : Context) : Checked :=
  let (channels, filter) := takeChannels filter
  if channels.isEmpty then t.checkRows .categories categoryColumns store.categories filter ctx
  else
    match store.categoryGroups channels with
    | .error e => ⟨.error e, t, ctx.asked ⟨.categoryGroups, channels⟩ false⟩
    | .ok groups =>
      t.checkRows .categories categoryColumns store.categories (narrowToGroups filter groups)
        (ctx.asked ⟨.categoryGroups, channels⟩ true)

/-- The filter with the text of the token as the value of a column. -/
def bound (t : Token) (filter : Where) (column : String) : Where :=
  filter.insert column (.is t.text)

/-- Checks a token. The shorthands put the text of the token into their column. -/
def checkAs (store : Store) (t : Token) (check : Check) (filter : Where) (ctx : Context) :
    Checked :=
  match check with
  | .own => ⟨.ok true, t, ctx⟩
  | .entryId => t.checkEntry store (t.bound filter "entry_id") ctx
  | .urlTitle => t.checkEntry store (t.bound filter "url_title") ctx
  | .categoryId => t.checkCategory store (t.bound filter "cat_id") ctx
  | .categoryUrlTitle => t.checkCategory store (t.bound filter "cat_url_title") ctx
  | .memberId => t.checkMember store (t.bound filter "member_id") ctx
  | .username => t.checkMember store (t.bound filter "username") ctx
  | .entry => t.checkEntry store filter ctx
  | .category => t.checkCategory store filter ctx
  | .member => t.checkMember store filter ctx

/-- Checks a token as its kind asks for; a token of any other kind is valid without a question. -/
def check (store : Store) (t : Token) (check : Check) (filter : Where) (ctx : Context) : Checked :=
  match check with
  | .own => t.checkAs store ((t.kind.bind Kind.check?).getD .own) filter ctx
  | check => t.checkAs store check filter ctx

end Token

end Signpost
