import Signpost.Dispatch.Attempt

/-!
# What checking tokens leaves behind

A check of a token writes down its question, and what it finds goes to the token and to the globals.
Nothing else of the context changes, and what was asked before has no say in it.
-/

namespace Signpost

variable {store : Store} {ctx ctx' : Context} {t : Token} {ts : List Token}

/-- A store that answers every question. -/
structure Store.Total (store : Store) : Prop where
  entries : ∀ filter, ∃ rows, store.entries filter = .ok rows
  categories : ∀ filter, ∃ rows, store.categories filter = .ok rows
  members : ∀ filter, ∃ rows, store.members filter = .ok rows
  categoryGroups : ∀ filter, ∃ groups, store.categoryGroups filter = .ok groups

/-! ## What a kind looks up -/

/-- The rows that a kind looks up: where they come from, which columns they have, and the column
that the text of the token has to stand in. -/
structure Lookup where
  question : Question
  columns : List String
  ask : Store → Where → Except StoreError (List Row)
  column : String

def Kind.lookup? : Kind → Option Lookup
  | .entryId => some ⟨.entries, entryColumns, Store.entries, "entry_id"⟩
  | .urlTitle => some ⟨.entries, entryColumns, Store.entries, "url_title"⟩
  | .categoryId => some ⟨.categories, categoryColumns, Store.categories, "cat_id"⟩
  | .categoryUrlTitle => some ⟨.categories, categoryColumns, Store.categories, "cat_url_title"⟩
  | .memberId => some ⟨.members, memberColumns, Store.members, "member_id"⟩
  | .username => some ⟨.members, memberColumns, Store.members, "username"⟩
  | _ => none

theorem Kind.lookup?_isSome (k : Kind) : k.lookup?.isSome = k.needsStore := by cases k <;> rfl

/-- The filter that asks for one value of one column. -/
def Where.only (column value : String) : Where := Where.empty.insert column (.is value)

/-- Whether the store has a row for the token; a token whose kind looks nothing up needs none. -/
def Token.confirmed (store : Store) (t : Token) : Bool :=
  match t.kind.bind Kind.lookup? with
  | some l =>
    match l.ask store (.only l.column t.text) with
    | .ok rows => !rows.isEmpty
    | .error _ => false
  | none => true

theorem Store.Total.ask (hstore : store.Total) {k : Kind} {l : Lookup} (hl : k.lookup? = some l)
    (filter : Where) : ∃ rows, l.ask store filter = .ok rows := by
  cases k <;> cases hl
  · exact hstore.entries filter
  · exact hstore.entries filter
  · exact hstore.categories filter
  · exact hstore.categories filter
  · exact hstore.members filter
  · exact hstore.members filter

/-! ## One question for each kind -/

theorem Where.get?_only {name column value : String} (h : compare name column ≠ .eq) :
    (only column value).get? name = none :=
  Dict.get?_insert_of_ne .empty h _

theorem Where.erase_only {name column value : String} (h : compare name column ≠ .eq) :
    (only column value).erase name = only column value := by
  have hentries : (only column value).columns.entries = [(column, .is value)] := rfl
  have hcolumns : ((only column value).erase name).columns = (only column value).columns := by
    refine Dict.ext ?_
    simp [erase, Dict.erase, hentries, h]
  exact congrArg Where.mk hcolumns

theorem Token.takeChannels_only {column value : String} (h : compare "channel" column ≠ .eq)
    (hname : compare "channel_name" column ≠ .eq) (hid : compare "channel_id" column ≠ .eq) :
    takeChannels (.only column value) = (.empty, .only column value) := by
  simp only [takeChannels, Where.take, Where.get?_only h, Where.get?_only hname,
    Where.get?_only hid, Where.erase_only hname, Where.erase_only hid]

theorem Token.checkCategory_only (store : Store) (t : Token) (ctx : Context) {column value : String}
    (h : compare "channel" column ≠ .eq) (hname : compare "channel_name" column ≠ .eq)
    (hid : compare "channel_id" column ≠ .eq) :
    t.checkCategory store (.only column value) ctx =
      t.checkRows .categories categoryColumns store.categories (.only column value) ctx := by
  rw [checkCategory, takeChannels_only h hname hid]
  rfl

theorem Token.check_own (store : Store) (t : Token) (ctx : Context) :
    t.check store .own .empty ctx =
      match t.kind.bind Kind.lookup? with
      | some l => t.checkRows l.question l.columns (l.ask store) (.only l.column t.text) ctx
      | none => ⟨.ok true, t, ctx⟩ := by
  obtain ⟨index, value, _ | k, columns⟩ := t
  · rfl
  · cases k
    case categoryId =>
      exact checkCategory_only store _ ctx (by decide +kernel) (by decide +kernel)
        (by decide +kernel)
    case categoryUrlTitle =>
      exact checkCategory_only store _ ctx (by decide +kernel) (by decide +kernel)
        (by decide +kernel)
    all_goals rfl

/-! ## Views of a context -/

/-- A view of a context that shows the path and the globals, and nothing of what was asked. -/
structure Context.IsView (view : Context → Context) : Prop where
  asked : ∀ ctx call answered, view (ctx.asked call answered) = view ctx
  withGlobals : ∀ ctx globals, view { ctx with globals } = { view ctx with globals }
  path : ∀ ctx, (view ctx).path = ctx.path

namespace Context.IsView

variable {view : Context → Context}

theorem globals (hview : IsView view) (ctx : Context) : (view ctx).globals = ctx.globals :=
  (congrArg Context.globals (hview.withGlobals ctx ctx.globals) :)

theorem path_eq (hview : IsView view) (h : view ctx = view ctx') : ctx.path = ctx'.path := by
  rw [← hview.path ctx, h, hview.path]

theorem globals_eq (hview : IsView view) (h : view ctx = view ctx') :
    ctx.globals = ctx'.globals := by
  rw [← hview.globals ctx, h, hview.globals]

theorem setGlobal (hview : IsView view) (ctx : Context) (key value : String) :
    view (ctx.setGlobal key value) = (view ctx).setGlobal key value := by
  rw [Context.setGlobal, hview.withGlobals, Context.setGlobal, hview.globals]

theorem foldl_setGlobal {α : Type} (hview : IsView view) (ctx : Context) (key value : α → String)
    (es : List α) :
    view (es.foldl (fun ctx e => ctx.setGlobal (key e) (value e)) ctx) =
      es.foldl (fun ctx e => ctx.setGlobal (key e) (value e)) (view ctx) := by
  induction es generalizing ctx with
  | nil => rfl
  | cons e es ih => rw [List.foldl_cons, ih, hview.setGlobal, List.foldl_cons]

end Context.IsView

/-- Two checks with the same answer and token, whose contexts a view does not tell apart. -/
structure Checked.Alike (view : Context → Context) (c c' : Checked) : Prop where
  answer : c.answer = c'.answer
  token : c.token = c'.token
  context : view c.context = view c'.context

/-- Two steps with the same answer and tokens, whose contexts a view does not tell apart. -/
structure Progress.Alike {α : Type} (view : Context → Context) (p p' : Progress α) : Prop where
  answer : p.answer = p'.answer
  tokens : p.tokens = p'.tokens
  context : view p.context = view p'.context

/-! ## What a check leaves alone -/

/-- The context without what was asked of the store. -/
def Context.unasked (ctx : Context) : Context := { ctx with lookups := 0, calls := [] }

theorem Context.unasked_isView : IsView unasked := ⟨fun _ _ _ => rfl, fun _ _ => rfl, fun _ => rfl⟩

theorem Context.globals_foldl_setGlobal {α : Type} (key value : α → String) (es : List α)
    (globals : Names String) :
    { es.foldl (fun ctx e => ctx.setGlobal (key e) (value e)) ctx with globals } =
      { ctx with globals } := by
  induction es generalizing ctx with
  | nil => rfl
  | cons e es ih => rw [List.foldl_cons, ih]; rfl

namespace Token

variable {view : Context → Context}

section Rows

variable {question : Question} {columns : List String} {filter : Where}
  {ask : Where → Except StoreError (List Row)}

theorem checkRows_alike (hview : Context.IsView view) (h : view ctx = view ctx') :
    Checked.Alike view (t.checkRows question columns ask filter ctx)
      (t.checkRows question columns ask filter ctx') := by
  unfold checkRows
  cases ask filter with
  | error e => exact ⟨rfl, rfl, (hview.asked ..).trans (h.trans (hview.asked ..).symm)⟩
  | ok rows =>
    refine ⟨rfl, rfl, ?_⟩
    simp only [adopt, hview.foldl_setGlobal, hview.asked, h]

theorem checkRows_globals :
    { (t.checkRows question columns ask filter ctx).context.unasked with
        globals := ctx.globals } = ctx.unasked := by
  unfold checkRows
  cases ask filter with
  | error e => rfl
  | ok rows =>
    simp only [adopt, Context.unasked_isView.foldl_setGlobal, Context.globals_foldl_setGlobal]
    rfl

theorem checkRows_answer {rows : List Row} (h : ask filter = .ok rows) :
    (t.checkRows question columns ask filter ctx).answer = .ok (!rows.isEmpty) := by
  unfold checkRows
  rw [h]
  cases rows <;> rfl

end Rows

theorem checkCategory_alike (hview : Context.IsView view) (store : Store) (t : Token)
    (filter : Where) (h : view ctx = view ctx') :
    Checked.Alike view (t.checkCategory store filter ctx) (t.checkCategory store filter ctx') := by
  have hasked : ∀ call answered, view (ctx.asked call answered) = view (ctx'.asked call answered) :=
    fun call answered => (hview.asked ..).trans (h.trans (hview.asked ..).symm)
  unfold checkCategory
  simp only
  split
  · exact checkRows_alike hview h
  · split
    · exact ⟨rfl, rfl, hasked _ _⟩
    · exact checkRows_alike hview (hasked _ _)

theorem check_alike (hview : Context.IsView view) (store : Store) (t : Token) (c : Check)
    (filter : Where) (h : view ctx = view ctx') :
    Checked.Alike view (t.check store c filter ctx) (t.check store c filter ctx') := by
  have hcheckAs : ∀ c,
      Checked.Alike view (t.checkAs store c filter ctx) (t.checkAs store c filter ctx') := by
    intro c
    cases c
    case own => exact ⟨rfl, rfl, h⟩
    case categoryId | categoryUrlTitle | category => exact checkCategory_alike hview store t _ h
    all_goals exact checkRows_alike hview h
  unfold check
  split <;> exact hcheckAs _

theorem check_globals :
    { (t.check store .own .empty ctx).context.unasked with globals := ctx.globals } =
      ctx.unasked := by
  rw [check_own]
  split
  · exact checkRows_globals
  · rfl

theorem check_answer (hstore : store.Total) (t : Token) (ctx : Context) :
    (t.check store .own .empty ctx).answer = .ok (t.confirmed store) := by
  rw [check_own, confirmed]
  split
  · next l hl =>
    obtain ⟨k, -, hl⟩ := Option.bind_eq_some_iff.1 hl
    obtain ⟨rows, hrows⟩ := hstore.ask hl (.only l.column t.text)
    rw [checkRows_answer hrows, hrows]
  · rfl

/-! ## Checking all tokens -/

theorem checkAll_answer (hstore : store.Total) (ts : List Token) (ctx : Context) :
    (checkAll store ts ctx).answer = .ok (ts.all (confirmed store)) := by
  induction ts generalizing ctx with
  | nil => rfl
  | cons t ts ih =>
    rw [checkAll]
    simp only [check_answer hstore, ih]
    rfl

theorem checkAll_alike (hview : Context.IsView view) (h : view ctx = view ctx') :
    Progress.Alike view (checkAll store ts ctx) (checkAll store ts ctx') := by
  induction ts generalizing ctx ctx' with
  | nil => exact ⟨rfl, rfl, h⟩
  | cons t ts ih =>
    obtain ⟨hanswer, htoken, hcontext⟩ := check_alike hview store t .own .empty h
    obtain ⟨hanswers, htokens, hcontexts⟩ := ih hcontext
    rw [checkAll, checkAll]
    simp only [hanswer, htoken]
    split
    · exact ⟨rfl, rfl, hcontext⟩
    · exact ⟨by rw [hanswers], by rw [htokens], hcontexts⟩

theorem checkAll_globals (hstore : store.Total) :
    { (checkAll store ts ctx).context.unasked with globals := ctx.globals } = ctx.unasked := by
  induction ts generalizing ctx with
  | nil => rfl
  | cons t ts ih =>
    rw [checkAll]
    simp only [check_answer hstore]
    have hrest := congrArg (fun c : Context => { c with globals := ctx.globals })
      (@ih (t.check store .own .empty ctx).context)
    exact hrest.trans check_globals

theorem validate_rejected (hstore : store.Total) (ctx : Context)
    (h : ts.all (confirmed store) = false) :
    (validate store ts ctx).answer = .ok false ∧
      (validate store ts ctx).context.unasked = ctx.unasked := by
  have hanswer := checkAll_answer hstore ts ctx
  rw [h] at hanswer
  rw [validate]
  simp only [hanswer]
  exact ⟨trivial, checkAll_globals hstore⟩

theorem validate_confirmed (hstore : store.Total) (ctx : Context)
    (h : ts.all (confirmed store) = true) : (validate store ts ctx).answer = .ok true := by
  have hanswer : (checkAll store ts ctx).answer = .ok true := by rw [checkAll_answer hstore, h]
  rw [validate]
  simp only [hanswer]

theorem validate_alike (hview : Context.IsView view) (h : view ctx = view ctx') :
    Progress.Alike view (validate store ts ctx) (validate store ts ctx') := by
  obtain ⟨hanswer, htokens, hcontext⟩ : Progress.Alike view (checkAll store ts ctx)
    (checkAll store ts ctx') := checkAll_alike hview h
  have hrestored : view { (checkAll store ts ctx).context with globals := ctx.globals } =
      view { (checkAll store ts ctx').context with globals := ctx'.globals } := by
    rw [hview.withGlobals, hcontext, hview.globals_eq h, ← hview.withGlobals]
  rw [validate, validate]
  simp only [hanswer]
  split
  · exact ⟨rfl, htokens, hrestored⟩
  · exact ⟨hanswer, htokens, hcontext⟩

end Token

/-! ## Rules that need no check -/

theorem KindSet.intersects_union (a b c : KindSet) :
    (a.union b).intersects c = (a.intersects c || b.intersects c) := by
  rw [Bool.eq_iff_iff, Bool.or_eq_true]
  simp only [intersects, union, BitVec.and_or_distrib_right, bne_iff_ne, ne_eq,
    ← Decidable.not_and_iff_not_or_not]
  exact not_congr BitVec.or_eq_zero_iff

theorem KindSet.intersects_comm (a b : KindSet) : a.intersects b = b.intersects a := by
  rw [intersects, intersects, BitVec.and_comm]

theorem KindSet.intersects_foldl (ks : List Kind) (a s : KindSet) :
    (ks.foldl (fun s k => s.union (single k)) a).intersects s =
      (a.intersects s || ks.any fun k => (single k).intersects s) := by
  induction ks generalizing a with
  | nil => simp
  | cons k ks ih => rw [List.foldl_cons, ih, intersects_union, List.any_cons, Bool.or_assoc]

theorem Pattern.needsStore_eq (p : Pattern) :
    p.needsStore = (p.kinds.filterMap id).any Kind.needsStore := by
  have hempty : KindSet.empty.intersects KindSet.needingStore = false := by decide
  rw [needsStore, kindSet, KindSet.ofList, KindSet.intersects_foldl, hempty, Bool.false_or]
  congr 1
  funext k
  rw [← KindSet.contains_needingStore, KindSet.contains, KindSet.intersects_comm]

theorem Token.kind_of_mem_block {kind : Option Kind} {captured value : Option String} {k : Kind}
    (h : (some k, value) ∈ block kind captured) : k = .any ∨ kind = some k := by
  unfold block at h
  split at h
  · obtain ⟨segment, -, heq⟩ := List.mem_map.1 h
    cases heq
    exact .inl rfl
  · cases List.mem_singleton.1 h
    exact .inl rfl
  · cases List.mem_singleton.1 h
    exact .inr rfl

theorem Token.kind_of_mem_ofCaptures {p : Pattern} {captures : List (Option String)}
    (h : t ∈ ofCaptures p captures) {k : Kind} (hk : t.kind = some k) :
    k = .any ∨ some k ∈ p.kinds := by
  obtain ⟨⟨⟨kind, value⟩, i⟩, hpart, rfl⟩ := List.mem_map.1 h
  obtain rfl : kind = some k := hk
  obtain ⟨part, hblock, hmem⟩ := List.mem_flatten.1 (List.fst_mem_of_mem_zipIdx hpart)
  obtain ⟨⟨captured, n⟩, -, rfl⟩ := List.mem_map.1 hblock
  refine (kind_of_mem_block hmem).imp_right fun hkind => ?_
  rw [Pattern.kind?, if_neg (Nat.succ_ne_zero n), Option.join_eq_some_iff] at hkind
  exact List.mem_of_getElem? hkind

theorem Token.lookup?_of_needsStore {p : Pattern} {captures : List (Option String)}
    (h : p.needsStore = false) (ht : t ∈ ofCaptures p captures) :
    t.kind.bind Kind.lookup? = none := by
  rw [Pattern.needsStore_eq, List.any_eq_false] at h
  refine Option.eq_none_iff_forall_ne_some.2 fun l hl => ?_
  obtain ⟨k, hk, hl⟩ := Option.bind_eq_some_iff.1 hl
  have hneeds : k.needsStore = true := by rw [← k.lookup?_isSome, hl]; rfl
  rcases kind_of_mem_ofCaptures ht hk with rfl | hmem
  · cases hneeds
  · exact absurd hneeds (h k (by simpa using hmem))

theorem Token.all_confirmed {p : Pattern} {captures : List (Option String)}
    (h : p.needsStore = false) : (ofCaptures p captures).all (confirmed store) = true := by
  rw [List.all_eq_true]
  intro t ht
  rw [confirmed, lookup?_of_needsStore h ht]

end Signpost
