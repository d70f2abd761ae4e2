import Signpost.Proofs.Token.Checking

/-!
# What a handler can do

A handler acts on a context by its changes and by its questions, unless it puts a new one in its place.
Questions and notes show in the globals and in the records only; the changes that a run makes to the
context that it leaves say whether it ends the request.
-/

namespace Signpost

variable {store : Store} {ctx ctx' ctx'' : Context} {t : Token}

/-! ## Checks -/

namespace Token

/-- What a check can come to: it asks nothing, fails, or keeps the columns of a row; before that it
may ask for the groups of a channel. -/
inductive Checks (t : Token) : Context → Checked → Prop
  | own (ctx : Context) : Checks t ctx ⟨.ok true, t, ctx⟩
  | failed {ctx : Context} (call : Call) (e : StoreError) :
    Checks t ctx ⟨.error e, t, ctx.asked call false⟩
  | found {ctx : Context} (call : Call) (columns : List String) (row : Option Row) :
    Checks t ctx ⟨.ok row.isSome, (t.adopt columns row (ctx.asked call true)).1,
      (t.adopt columns row (ctx.asked call true)).2⟩
  | narrowed {ctx : Context} {checked : Checked} (call : Call)
    (hrows : Checks t (ctx.asked call true) checked) : Checks t ctx checked

theorem checks_checkRows (t : Token) (question : Question) (columns : List String)
    (ask : Where → Except StoreError (List Row)) (filter : Where) (ctx : Context) :
    t.Checks ctx (t.checkRows question columns ask filter ctx) := by
  unfold checkRows
  cases ask filter with
  | error e => exact .failed _ e
  | ok rows => exact .found _ columns rows.head?

theorem checks_checkCategory (store : Store) (t : Token) (filter : Where) (ctx : Context) :
    t.Checks ctx (t.checkCategory store filter ctx) := by
  unfold checkCategory
  simp only
  split
  · exact checks_checkRows ..
  · split
    · exact .failed _ _
    · exact .narrowed _ (checks_checkRows ..)

theorem checks_check (store : Store) (t : Token) (c : Check) (filter : Where) (ctx : Context) :
    t.Checks ctx (t.check store c filter ctx) := by
  have hcheckAs : ∀ c, t.Checks ctx (t.checkAs store c filter ctx) := by
    intro c
    cases c
    case own => exact .own ctx
    case categoryId | categoryUrlTitle | category => exact checks_checkCategory ..
    all_goals exact checks_checkRows ..
  unfold check
  split <;> exact hcheckAs _

theorem Checks.index {checked : Checked} (h : t.Checks ctx checked) :
    checked.token.index = t.index := by
  induction h with
  | own | failed | found => rfl
  | narrowed _ _ ih => exact ih

end Token

/-! ## After questions and notes -/

/-- What a context may be after questions to the store and notes: only the globals, the record of
the questions and the journal may differ. -/
def Context.AfterInquiry (ctx ctx' : Context) : Prop :=
  ctx' = { ctx with
    globals := ctx'.globals
    lookups := ctx'.lookups
    calls := ctx'.calls
    journal := ctx'.journal }

namespace Context.AfterInquiry

theorem refl (ctx : Context) : ctx.AfterInquiry ctx := rfl

theorem trans (h : ctx.AfterInquiry ctx') (h' : ctx'.AfterInquiry ctx'') :
    ctx.AfterInquiry ctx'' := by
  unfold AfterInquiry at h h' ⊢
  rw [h', h]

theorem asked (ctx : Context) (call : Call) (answered : Bool) :
    ctx.AfterInquiry (ctx.asked call answered) := rfl

theorem setGlobal (ctx : Context) (key value : String) :
    ctx.AfterInquiry (ctx.setGlobal key value) := rfl

theorem note (ctx : Context) (message : String) :
    ctx.AfterInquiry { ctx with journal := ctx.journal ++ [message] } := rfl

theorem renew (ctx : Context) (path : String) :
    (Context.new path).AfterInquiry (ctx.renew path) := rfl

theorem foldl_setGlobal {α : Type} (key value : α → String) (es : List α) (ctx : Context) :
    ctx.AfterInquiry (es.foldl (fun ctx e => ctx.setGlobal (key e) (value e)) ctx) := by
  induction es generalizing ctx with
  | nil => exact refl ctx
  | cons e es ih => exact (setGlobal ctx (key e) (value e)).trans (ih _)

theorem exportAll (ts : List Token) (ctx : Context) :
    ctx.AfterInquiry (Token.exportAll ts ctx) :=
  foldl_setGlobal (fun t : Token => globalName t.index) Token.text ts ctx

theorem check (store : Store) (t : Token) (c : Check) (filter : Where) (ctx : Context) :
    ctx.AfterInquiry (t.check store c filter ctx).context := by
  have hchecks := Token.checks_check store t c filter ctx
  generalize t.check store c filter ctx = checked at hchecks
  induction hchecks with
  | own => exact refl _
  | failed call _ => exact asked _ call false
  | found call _ _ => exact (asked _ call true).trans (foldl_setGlobal ..)
  | narrowed call _ ih => exact (asked _ call true).trans ih

theorem checkAll (store : Store) (ts : List Token) (ctx : Context) :
    ctx.AfterInquiry (Token.checkAll store ts ctx).context := by
  induction ts generalizing ctx with
  | nil => exact refl ctx
  | cons t ts ih =>
    rw [Token.checkAll]
    simp only
    split
    · exact check ..
    · exact (check ..).trans (ih _)

theorem validate (store : Store) (ts : List Token) (ctx : Context) :
    ctx.AfterInquiry (Token.validate store ts ctx).context := by
  have h := checkAll store ts ctx
  unfold Token.validate
  simp only
  split
  · unfold AfterInquiry at h ⊢
    rw [h]
  · exact h

end Context.AfterInquiry

/-! ## Numbers of tokens -/

namespace Token

theorem map_index_checkAll (store : Store) (ts : List Token) (ctx : Context) :
    (checkAll store ts ctx).tokens.map index = ts.map index := by
  induction ts generalizing ctx with
  | nil => rfl
  | cons t ts ih =>
    rw [checkAll]
    simp only
    split
    · exact congrArg (· :: ts.map index) (checks_check ..).index
    · rw [List.map_cons, ih, (checks_check ..).index, List.map_cons]

theorem map_index_validate (store : Store) (ts : List Token) (ctx : Context) :
    (validate store ts ctx).tokens.map index = ts.map index := by
  unfold validate
  simp only
  split <;> exact map_index_checkAll ..

end Token

/-! ## What a change has a say in -/

namespace Change

/-- Whether a change asks for the page of a 404. -/
def refuses : Change → Bool
  | notFound => true
  | _ => false

def redirects : Change → Bool
  | redirect .. => true
  | _ => false

/-- Whether a change ends the request: it redirects, or asks for the page of a 404. -/
def ends : Change → Bool
  | redirect .. => true
  | notFound => true
  | _ => false

theorem ends_eq (c : Change) : c.ends = (c.refuses || c.redirects) := by cases c <;> rfl

/-- The template that a change sets. -/
def template? : Change → Option Template
  | template t => some t
  | _ => none

end Change

namespace Context

/-- Whether a handler has ended the request. -/
def isEnded (ctx : Context) : Bool := ctx.notFound || ctx.isRedirecting

theorem setHeader_frame (ctx : Context) (name value : String) :
    ctx.setHeader name value = { ctx with
      headers := (ctx.setHeader name value).headers
      contentType := (ctx.setHeader name value).contentType } := by
  unfold setHeader
  split <;> rfl

theorem apply_frame (ctx : Context) (c : Change) :
    (ctx.apply c).isPage = ctx.isPage ∧ (ctx.apply c).template = c.template?.or ctx.template ∧
      (ctx.apply c).notFound = (ctx.notFound || c.refuses) ∧
      (ctx.apply c).isRedirecting = (ctx.isRedirecting || c.redirects) := by
  have hheader : ∀ name value, (ctx.setHeader name value).isPage = ctx.isPage ∧
      (ctx.setHeader name value).template = ctx.template ∧
      (ctx.setHeader name value).notFound = (ctx.notFound || false) ∧
      (ctx.setHeader name value).isRedirecting = (ctx.isRedirecting || false) := by
    intro name value
    rw [setHeader_frame, Bool.or_false, Bool.or_false]
    exact ⟨rfl, rfl, rfl, rfl⟩
  cases c
  case header | contentType => exact hheader ..
  case rawHeader line =>
    simp only [apply]
    split
    · exact hheader ..
    · exact ⟨rfl, rfl, (Bool.or_false _).symm, (Bool.or_false _).symm⟩
  case json =>
    simp only [apply]
    rw [setHeader_frame]
    exact ⟨rfl, rfl, (Bool.or_false _).symm, (Bool.or_false _).symm⟩
  case redirect => exact ⟨rfl, rfl, (Bool.or_false _).symm, (Bool.or_true _).symm⟩
  case notFound => exact ⟨rfl, rfl, (Bool.or_true _).symm, (Bool.or_false _).symm⟩
  all_goals exact ⟨rfl, rfl, (Bool.or_false _).symm, (Bool.or_false _).symm⟩

namespace AfterInquiry

theorem isPage (h : ctx.AfterInquiry ctx') : ctx'.isPage = ctx.isPage := by
  rw [AfterInquiry] at h
  rw [h]

theorem template (h : ctx.AfterInquiry ctx') : ctx'.template = ctx.template := by
  rw [AfterInquiry] at h
  rw [h]

theorem notFound (h : ctx.AfterInquiry ctx') : ctx'.notFound = ctx.notFound := by
  rw [AfterInquiry] at h
  rw [h]

theorem isRedirecting (h : ctx.AfterInquiry ctx') : ctx'.isRedirecting = ctx.isRedirecting := by
  rw [AfterInquiry] at h
  rw [h]
  rfl

theorem isEnded (h : ctx.AfterInquiry ctx') : ctx'.isEnded = ctx.isEnded := by
  rw [Context.isEnded, h.notFound, h.isRedirecting, Context.isEnded]

end AfterInquiry

/-! ## After changes -/

/-- The contexts before and after changes, with questions and notes between them. -/
inductive AfterChanges : List Change → Context → Context → Prop
  | asked {ctx ctx' : Context} (h : ctx.AfterInquiry ctx') : AfterChanges [] ctx ctx'
  | changed {c : Change} {cs : List Change} {ctx mid ctx' : Context} (h : ctx.AfterInquiry mid)
    (hrest : AfterChanges cs (mid.apply c) ctx') : AfterChanges (c :: cs) ctx ctx'

namespace AfterChanges

variable {cs : List Change} {mid : Context}

theorem after (h : ctx.AfterInquiry mid) (hrest : AfterChanges cs mid ctx') :
    AfterChanges cs ctx ctx' := by
  cases hrest with
  | asked h' => exact .asked (h.trans h')
  | changed h' hrest => exact .changed (h.trans h') hrest

theorem isPage (h : AfterChanges cs ctx ctx') : ctx'.isPage = ctx.isPage := by
  induction h with
  | asked h => exact h.isPage
  | changed h _ ih => exact ih.trans ((apply_frame ..).1.trans h.isPage)

theorem template (h : AfterChanges cs ctx ctx') (hcs : ∀ c ∈ cs, c.template? = none) :
    ctx'.template = ctx.template := by
  induction h with
  | asked h => exact h.template
  | @changed c cs _ _ _ h _ ih =>
    rw [ih fun c hc => hcs c (List.mem_cons_of_mem _ hc), (apply_frame ..).2.1,
      hcs c List.mem_cons_self, Option.none_or, h.template]

theorem switch {flag : Context → Bool} {raises : Change → Bool}
    (hasked : ∀ {ctx ctx'}, AfterInquiry ctx ctx' → flag ctx' = flag ctx)
    (happly : ∀ ctx c, flag (apply ctx c) = (flag ctx || raises c)) (h : AfterChanges cs ctx ctx') :
    flag ctx' = (flag ctx || cs.any raises) := by
  induction h with
  | asked h => rw [hasked h, List.any_nil, Bool.or_false]
  | changed h _ ih => rw [ih, happly, hasked h, List.any_cons, Bool.or_assoc]

end AfterChanges

end Context

/-! ## Runs -/

/-- What a run does on its way: the path of the last new context that it puts there, if it puts one
there at all, and the changes that it makes from then on. -/
structure Trail where
  renewal? : Option String := none
  changes : List Change := []

namespace Trail

variable {trail : Trail}

/-- A change is lost if a new context is put there after it. -/
def after (c : Change) (trail : Trail) : Trail :=
  if trail.renewal?.isSome then trail else { trail with changes := c :: trail.changes }

def renewed (path : String) (trail : Trail) : Trail :=
  { trail with renewal? := trail.renewal?.or (some path) }

/-- The context that the changes are made to. -/
def start (trail : Trail) (ctx : Context) : Context := trail.renewal?.elim ctx Context.new

theorem flag_start {flag : Context → Bool} (hnew : ∀ path, flag (.new path) = false) (trail : Trail)
    (ctx : Context) : flag (trail.start ctx) = (!trail.renewal?.isSome && flag ctx) := by
  unfold start
  cases trail.renewal? with
  | none => rfl
  | some path => exact hnew path

theorem afterInquiry_start (trail : Trail) (h : ctx.AfterInquiry ctx') :
    (trail.start ctx).AfterInquiry (trail.start ctx') := by
  unfold start
  cases trail.renewal? with
  | none => exact h
  | some path => exact .refl _

theorem afterChanges_after {c : Change}
    (h : Context.AfterChanges trail.changes (trail.start (ctx.apply c)) ctx') :
    Context.AfterChanges (trail.after c).changes ((trail.after c).start ctx) ctx' := by
  obtain ⟨renewal?, changes⟩ := trail
  cases renewal? with
  | none => exact .changed (.refl ctx) h
  | some path => exact h

theorem afterChanges_renewed {path : String}
    (h : Context.AfterChanges trail.changes (trail.start (ctx.renew path)) ctx') :
    Context.AfterChanges (trail.renewed path).changes ((trail.renewed path).start ctx) ctx' := by
  obtain ⟨renewal?, changes⟩ := trail
  cases renewal? with
  | none => exact h.after (.renew ctx path)
  | some later => exact h

end Trail

namespace Handler

variable {α : Type}

def trail (store : Store) : Handler α → List Token → Context → Trail
  | done _, _, _ => {}
  | fail _, _, _ => {}
  | look next, tokens, ctx => (next ctx tokens).trail store tokens ctx
  | change c next, tokens, ctx => (next.trail store tokens (ctx.apply c)).after c
  | renew path next, tokens, ctx => (next.trail store tokens (ctx.renew path)).renewed path
  | setValue position value next, tokens, ctx =>
    match tokenAt? tokens position with
    | some t => next.trail store (setTokenAt tokens position (t.setValue value)) ctx
    | none => next.trail store tokens ctx
  | check position c filter next, tokens, ctx =>
    match tokenAt? tokens position with
    | some t =>
      let checked := t.check store c filter ctx
      (next checked.answer).trail store (setTokenAt tokens position checked.token) checked.context
    | none => (next (.ok false)).trail store tokens ctx
  | examine t c filter next, tokens, ctx =>
    let checked := t.check store c filter ctx
    (next checked.answer checked.token).trail store tokens checked.context
  | note message next, tokens, ctx =>
    next.trail store tokens { ctx with journal := ctx.journal ++ [message] }

/-- The changes that a handler makes to the context that it leaves, in order. -/
def changes (store : Store) (h : Handler α) (tokens : List Token) (ctx : Context) : List Change :=
  (h.trail store tokens ctx).changes

/-- Whether a handler puts a new context in place of the one it is given. -/
def renews (store : Store) (h : Handler α) (tokens : List Token) (ctx : Context) : Bool :=
  (h.trail store tokens ctx).renewal?.isSome

theorem run_afterChanges (h : Handler α) (tokens : List Token) (ctx : Context) :
    Context.AfterChanges (h.changes store tokens ctx) ((h.trail store tokens ctx).start ctx)
      (h.run store tokens ctx).context := by
  unfold changes
  induction h generalizing tokens ctx with
  | done | fail => exact .asked (.refl ctx)
  | look _ ih => exact ih ..
  | note _ _ ih => exact (ih ..).after (Trail.afterInquiry_start _ (.note ctx _))
  | examine t c filter _ ih =>
    exact (ih ..).after (Trail.afterInquiry_start _ (.check store t c filter ctx))
  | change c _ ih => exact Trail.afterChanges_after (ih ..)
  | renew path _ ih => exact Trail.afterChanges_renewed (ih ..)
  | setValue position _ _ ih =>
    cases htoken : tokenAt? tokens position <;>
    · simp only [run, trail, htoken]
      exact ih ..
  | check position c filter _ ih =>
    cases htoken : tokenAt? tokens position with
    | none =>
      simp only [run, trail, htoken]
      exact ih ..
    | some t =>
      simp only [run, trail, htoken]
      exact (ih ..).after (Trail.afterInquiry_start _ (.check store t c filter ctx))

theorem run_isPage (h : Handler α) (tokens : List Token) (ctx : Context) :
    (h.run store tokens ctx).context.isPage = (!h.renews store tokens ctx && ctx.isPage) :=
  (h.run_afterChanges tokens ctx).isPage.trans (Trail.flag_start (fun _ => rfl) _ ctx)

theorem run_map_index (h : Handler α) (tokens : List Token) (ctx : Context) :
    (h.run store tokens ctx).tokens.map Token.index = tokens.map Token.index := by
  have hset : ∀ {tokens : List Token} {position : Nat} {t u : Token},
      tokenAt? tokens position = some t → u.index = t.index →
        (setTokenAt tokens position u).map Token.index = tokens.map Token.index := by
    intro tokens position t u htoken hindex
    unfold tokenAt? at htoken
    split at htoken
    · cases htoken
    · obtain ⟨hlt, rfl⟩ := List.getElem?_eq_some_iff.1 htoken
      have hbound : position - 1 < (tokens.map Token.index).length := by simpa using hlt
      have hsame : u.index = (tokens.map Token.index)[position - 1] := by
        rw [hindex, List.getElem_map]
      rw [setTokenAt, List.map_set, hsame]
      exact List.set_getElem_self _
  induction h generalizing tokens ctx with
  | done | fail => rfl
  | look _ ih | examine _ _ _ _ ih => exact ih ..
  | change _ _ ih | renew _ _ ih | note _ _ ih => exact ih ..
  | setValue position _ _ ih =>
    simp only [run]
    split
    · next htoken => exact (ih ..).trans (hset htoken rfl)
    · exact ih ..
  | check position c filter _ ih =>
    simp only [run]
    split
    · next htoken => exact (ih ..).trans (hset htoken (Token.checks_check ..).index)
    · exact ih ..

/-- A flag that is off in a new context is on after a run if it was on before and the context was kept,
or if a change has switched it on. -/
theorem run_switch {flag : Context → Bool} {raises : Change → Bool}
    (hnew : ∀ path, flag (.new path) = false)
    (hasked : ∀ {ctx ctx'}, Context.AfterInquiry ctx ctx' → flag ctx' = flag ctx)
    (happly : ∀ ctx c, flag (Context.apply ctx c) = (flag ctx || raises c)) (h : Handler α)
    (tokens : List Token) (ctx : Context) :
    flag (h.run store tokens ctx).context =
      ((!h.renews store tokens ctx && flag ctx) || (h.changes store tokens ctx).any raises) := by
  rw [(h.run_afterChanges tokens ctx).switch hasked happly, Trail.flag_start hnew]
  rfl

theorem run_notFound (h : Handler α) (tokens : List Token) (ctx : Context) :
    (h.run store tokens ctx).context.notFound =
      ((!h.renews store tokens ctx && ctx.notFound) ||
        (h.changes store tokens ctx).any Change.refuses) :=
  run_switch (fun _ => rfl) (fun hasked => hasked.notFound) (fun ctx c => (ctx.apply_frame c).2.2.1)
    h tokens ctx

theorem run_isRedirecting (h : Handler α) (tokens : List Token) (ctx : Context) :
    (h.run store tokens ctx).context.isRedirecting =
      ((!h.renews store tokens ctx && ctx.isRedirecting) ||
        (h.changes store tokens ctx).any Change.redirects) :=
  run_switch (fun _ => rfl) (fun hasked => hasked.isRedirecting)
    (fun ctx c => (ctx.apply_frame c).2.2.2) h tokens ctx

theorem run_isEnded (h : Handler α) (tokens : List Token) (ctx : Context) :
    (h.run store tokens ctx).context.isEnded =
      ((!h.renews store tokens ctx && ctx.isEnded) ||
        (h.changes store tokens ctx).any Change.ends) := by
  refine run_switch (fun _ => rfl) (fun hasked => hasked.isEnded) (fun ctx c => ?_) h tokens ctx
  obtain ⟨-, -, hnotFound, hredirect⟩ := ctx.apply_frame c
  rw [Context.isEnded, hnotFound, hredirect, c.ends_eq, Context.isEnded]
  cases ctx.notFound <;> cases c.refuses <;> simp

theorem run_afterInquiry (h : Handler α) (tokens : List Token) (ctx : Context)
    (hkept : h.renews store tokens ctx = false) (hchanges : h.changes store tokens ctx = []) :
    ctx.AfterInquiry (h.run store tokens ctx).context := by
  have hrun : Context.AfterChanges (h.changes store tokens ctx) ((h.trail store tokens ctx).start ctx)
      (h.run store tokens ctx).context := h.run_afterChanges tokens ctx
  rw [renews, Option.isSome_eq_false_iff, Option.isNone_iff_eq_none] at hkept
  rw [hchanges, Trail.start, hkept] at hrun
  cases hrun with
  | asked h => exact h

end Handler

end Signpost
