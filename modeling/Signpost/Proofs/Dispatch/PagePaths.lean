import Signpost.Store.Memory
import Signpost.Proofs.Dispatch.Walk

/-!
# Paths of pages

Whether the requested path is that of a page is settled before anything runs, and stays so as long as
no handler puts a new context in place of the one it is given. Such a path is given no template: the
host handles it, unless a handler has ended the request. A new context is that of no page.
-/

namespace Signpost

variable {store : Store} {ctx ctx' : Context} {route : Route} {attempt : Attempt}

/-! ## Handlers that end a request -/

/-- A run redirects, asks for the page of a 404, or answers with a body that is not empty. -/
def Handler.Ends (store : Store) (h : Handler (Option String)) (tokens : List Token)
    (ctx : Context) : Prop :=
  (h.changes store tokens ctx).any Change.ends = true ∨
    ∃ text, (h.run store tokens ctx).answer = .ok (some text) ∧ text ≠ ""

theorem Route.Tried.ends {tokens : List Token} (h : Tried store route ctx attempt tokens ctx')
    (hctx : ctx.isEnded = false)
    (hverdict : attempt.verdict = .emitted ∨ attempt.verdict = .notFound) :
    ∃ hd captures, route.destination = .handler hd ∧
      route.pattern.regex.captures? ctx.path = some captures ∧
      hd.Ends store (Token.ofCaptures route.pattern captures) ctx := by
  obtain ⟨hd, captures, body, hdest, hcaptures, hanswer, rfl⟩ := h.of_answered hverdict
  refine ⟨hd, captures, hdest, hcaptures, ?_⟩
  rcases Attempt.ofAnswer_cases body
    (hd.run store (Token.ofCaptures route.pattern captures) ctx).context with
    ⟨-, heq⟩ | ⟨-, hended | ⟨text, rfl, htext⟩⟩
  · exact absurd (heq ▸ hverdict) (Attempt.not_answered_ofTemplate _)
  · rw [Handler.run_isEnded, hctx, Bool.and_false, Bool.false_or] at hended
    exact .inl hended
  · exact .inr ⟨text, hanswer, htext⟩

/-! ## New contexts -/

namespace Walk

end Walk

/-! ## The end of a dispatch -/

namespace Context

theorem outcome_of_isPage (h : ctx.isPage = true) : ctx.outcome = .notRoutable := by
  have hroutable : ctx.isRoutable = false := by simp [isRoutable, h]
  unfold outcome
  split
  · rw [hroutable]
    rfl
  · rfl

theorem outcome_fill_of_isPage (h : ctx.isPage = true) (tokens : List Token) :
    (ctx.fill tokens).outcome = .notRoutable :=
  outcome_of_isPage ((isPage_fill ctx tokens).trans h)

end Context

namespace RouteTable

variable {table : RouteTable} {path : String} {d : Dispatch} {m : Metrics}

theorem isPage_finish (table : RouteTable) (decision : Option Decision) (ctx : Context) :
    (table.finish decision ctx).isPage = ctx.isPage := by
  unfold finish
  split
  · exact ctx.isPage_fill []
  · next d =>
    split
    · rfl
    · rfl
    · exact ctx.isPage_fill d.tokens

theorem ended?_eq_none (h : ended? ctx = none) : ctx.isEnded = false := by
  unfold ended? at h
  unfold Context.isEnded
  cases hnotFound : ctx.notFound <;> cases hredirect : ctx.isRedirecting <;> simp_all

theorem ended?_eq_some (h : ended? ctx = some d) :
    ctx.isEnded = true ∧ d.isPage = ctx.isPage ∧ ∀ t, d.outcome ≠ .template t := by
  unfold ended? at h
  unfold Context.isEnded
  split at h
  · next hnotFound =>
    cases h
    exact ⟨by rw [hnotFound, Bool.true_or], rfl, fun _ => nofun⟩
  · split at h
    · next hredirect =>
      cases h
      exact ⟨by rw [hredirect, Bool.or_true], rfl, fun _ => nofun⟩
    · cases h

/-- The handler of the table redirects, or asks for the page of a 404. -/
def EndedBefore (table : RouteTable) (store : Store) (path : String) : Prop :=
  ∃ h, table.before = some h ∧ (h.changes store [] (table.start path)).any Change.ends = true

/-- The handler of a rule that matches ends the request, after rules that have decided nothing. -/
def EndedByRule (table : RouteTable) (store : Store) (path : String) : Prop :=
  ∃ tried route later ctx h captures, table.routes = tried.map Prod.fst ++ route :: later ∧
    Walk.Passes store tried (table.prepare store path).context ctx ∧
    route.destination = .handler h ∧ route.pattern.regex.captures? ctx.path = some captures ∧
    h.Ends store (Token.ofCaptures route.pattern captures) ctx

/-- The handler of a rule that is tried puts a new context in place of the one it is given. -/
def RenewedByRule (table : RouteTable) (store : Store) (path : String) : Prop :=
  ended? (table.prepare store path).context = none ∧
    ∃ tried route later ctx, table.routes = tried.map Prod.fst ++ route :: later ∧
      Walk.Passes store tried (table.prepare store path).context ctx ∧ route.Renews store ctx

/-- Some handler that runs puts a new context in place of the one it is given. -/
def Renewed (table : RouteTable) (store : Store) (path : String) : Prop :=
  table.RenewedBefore store path ∨ table.RenewedByRule store path

/-- Neither the table nor any of its rules has a handler. -/
structure HandlerFree (table : RouteTable) : Prop where
  before : table.before = none
  routes : ∀ route ∈ table.routes, ∃ t, route.destination = .template t

theorem HandlerFree.not_renewed (h : table.HandlerFree) : ¬table.Renewed store path := by
  rintro (⟨hd, hbefore, -⟩ | ⟨-, tried, route, later, ctx, hroutes, -, hd, -, hhandler, -⟩)
  · cases h.before.symm.trans hbefore
  · obtain ⟨t, ht⟩ := h.routes route (by simp [hroutes])
    cases ht.symm.trans hhandler

theorem endedBefore_of_isEnded (h : (table.prepare store path).context.isEnded = true) :
    table.EndedBefore store path := by
  have hstart : (table.start path).isEnded = false := rfl
  unfold prepare at h
  cases hbefore : table.before with
  | none =>
    simp only [hbefore, hstart] at h
    cases h
  | some hd =>
    simp only [hbefore] at h
    rw [Handler.run_isEnded, hstart, Bool.and_false, Bool.false_or] at h
    exact ⟨hd, hbefore, h⟩

theorem isPage_of_passes {tried : List (Route × Verdict)} {rest : List Route}
    (hended : ended? (table.prepare store path).context = none)
    (hroutes : table.routes = tried.map Prod.fst ++ rest)
    (hpasses : Walk.Passes store tried (table.prepare store path).context ctx)
    (hkept : ¬table.RenewedByRule store path) :
    ctx.isPage = (table.prepare store path).context.isPage := by
  refine hpasses.isPage fun before route verdict after mid hsplit hbefore hrenews => hkept ?_
  refine ⟨hended, before, route, after.map Prod.fst ++ rest, mid, ?_, hbefore, hrenews⟩
  rw [hroutes, hsplit, List.map_append, List.map_cons, List.append_assoc, List.cons_append]

theorem Course.isPage (h : Course table store path d m) (hkept : ¬table.Renewed store path) :
    d.isPage = table.pages.owns ("/" ++ Text.dropTrailingSlashes path) := by
  obtain ⟨hbefore, hrules⟩ := not_or.1 hkept
  rw [← isPage_prepare hbefore]
  cases h with
  | ended hended => exact (ended?_eq_some hended).2.1
  | undecided hended hroutes hpasses =>
    exact (isPage_finish ..).trans
      (isPage_of_passes hended (hroutes.trans (List.append_nil _).symm) hpasses hrules)
  | @decided tried route later ctx attempt hended hroutes hpasses =>
    have hturn : ¬route.Renews store ctx := fun hrenews =>
      hrules ⟨hended, tried, route, later, ctx, hroutes, hpasses, hrenews⟩
    exact (isPage_finish ..).trans
      ((Route.isPage_attempt hturn).trans (isPage_of_passes hended hroutes hpasses hrules))

theorem Course.outcome_of_isPage (h : Course table store path d m) (hpage : d.isPage = true) :
    (∀ t, d.outcome ≠ .template t) ∧
      (d.outcome = .notRoutable ∨ table.EndedBefore store path ∨ table.EndedByRule store path) := by
  have hroutable : ∀ {o : Outcome}, o = .notRoutable → ∀ t, o ≠ .template t := by
    rintro _ rfl t ht
    cases ht
  cases h with
  | ended hended =>
    obtain ⟨hended, -, houtcome⟩ := ended?_eq_some hended
    exact ⟨houtcome, .inr (.inl (endedBefore_of_isEnded hended))⟩
  | undecided =>
    rw [isPage_finish] at hpage
    have houtcome := Context.outcome_fill_of_isPage hpage []
    exact ⟨hroutable houtcome, .inl houtcome⟩
  | @decided tried route later ctx attempt hended hroutes hpasses hanswer hfinal =>
    have htried := Route.tried_of_attempt hanswer
    have hends : attempt.verdict = .emitted ∨ attempt.verdict = .notFound →
        table.EndedByRule store path := by
      intro hverdict
      obtain ⟨hd, captures, hdest, hcaptures, hends⟩ :=
        htried.ends (hpasses.isEnded (ended?_eq_none hended)) hverdict
      exact ⟨tried, route, later, ctx, hd, captures, hroutes, hpasses, hdest, hcaptures, hends⟩
    rw [isPage_finish] at hpage
    cases hverdict : attempt.verdict with
    | noMatch | rejected | declined => simp [hverdict, Verdict.isFinal] at hfinal
    | emitted =>
      rw [finish_emitted table route _ _ hverdict]
      exact ⟨fun _ => Outcome.noConfusion, .inr (.inr (hends (.inl hverdict)))⟩
    | notFound =>
      rw [finish_notFound table route _ _ hverdict]
      exact ⟨fun _ => Outcome.noConfusion, .inr (.inr (hends (.inr hverdict)))⟩
    | selected =>
      have houtcome := Context.outcome_fill_of_isPage hpage (route.attempt store ctx).tokens
      rw [finish_selected table route _ _ hverdict]
      exact ⟨hroutable houtcome, .inl houtcome⟩

end RouteTable

end Signpost
