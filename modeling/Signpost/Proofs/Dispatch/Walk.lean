import Signpost.Dispatch.Basic
import Signpost.Proofs.Except
import Signpost.Proofs.Handler.Changes

/-!
# The course of a dispatch

A dispatch is ended by the handler of its table, or it passes over rules until one decides or none is
left. What a rule can make of a request is said once, by `Tried`; what is kept by every rule that is
passed over is kept by the whole walk.
-/

namespace Signpost

variable {store : Store} {ctx ctx' : Context} {route : Route} {attempt : Attempt}

/-! ## One rule -/

namespace Attempt

theorem hasTemplate_of_selected (h : (ofTemplate ctx).verdict = .selected) :
    ctx.hasTemplate = true := by
  cases hctx : ctx.hasTemplate with
  | true => rfl
  | false => simp [ofTemplate, hctx] at h

theorem not_hasTemplate_of_declined (h : (ofTemplate ctx).verdict = .declined) :
    ctx.hasTemplate = false := by
  cases hctx : ctx.hasTemplate with
  | false => rfl
  | true => simp [ofTemplate, hctx] at h

theorem isFinal_ofTemplate (ctx : Context) : (ofTemplate ctx).verdict.isFinal = ctx.hasTemplate := by
  cases hctx : ctx.hasTemplate <;> simp [ofTemplate, hctx, Verdict.isFinal]

theorem not_answered_ofTemplate (ctx : Context) :
    ¬((ofTemplate ctx).verdict = .emitted ∨ (ofTemplate ctx).verdict = .notFound) := by
  cases hctx : ctx.hasTemplate <;> simp [ofTemplate, hctx]

theorem ofAnswer_cases (body : Option String) (ctx : Context) :
    (ctx.isEnded = false ∧ ofAnswer body ctx = ofTemplate ctx) ∨
      (((ofAnswer body ctx).verdict = .emitted ∨ (ofAnswer body ctx).verdict = .notFound) ∧
        (ctx.isEnded = true ∨ ∃ text, body = some text ∧ text ≠ "")) := by
  unfold ofAnswer Context.isEnded
  cases hnotFound : ctx.notFound with
  | true => exact .inr ⟨.inr rfl, .inl rfl⟩
  | false =>
    cases hbody : body.filter (!·.isEmpty) with
    | some text =>
      obtain ⟨hsome, htext⟩ := Option.filter_eq_some_iff.1 hbody
      exact .inr ⟨.inl rfl, .inr ⟨text, hsome, by simpa using htext⟩⟩
    | none =>
      cases hredirect : ctx.isRedirecting with
      | true => exact .inr ⟨.inl rfl, .inl rfl⟩
      | false => exact .inl ⟨rfl, by simp⟩

end Attempt

namespace Destination

theorem isPage_reach_template (store : Store) (p : Pattern) (tokens : List Token) (ctx : Context)
    (t : Template) : (reach store p tokens ctx (.template t)).context.isPage = ctx.isPage := by
  have hchecked : (if p.needsStore then Token.validate store tokens ctx
      else ⟨.ok true, tokens, ctx⟩).context.isPage = ctx.isPage := by
    split
    · exact (Context.AfterInquiry.validate ..).isPage
    · rfl
  simp only [reach, Progress.andThen]
  split
  · next valid _ => cases valid <;> exact hchecked
  · exact hchecked

theorem isPage_reach_handler (store : Store) (p : Pattern) (tokens : List Token) (ctx : Context)
    (h : Handler (Option String)) : (reach store p tokens ctx (.handler h)).context.isPage =
      (!h.renews store tokens ctx && ctx.isPage) := by
  simp only [reach, Progress.andThen]
  split <;> exact h.run_isPage tokens ctx

end Destination

namespace Route

def traced (route : Route) (verdict : Verdict) : TraceEntry :=
  ⟨route.rule, route.pattern.regex.text, verdict⟩

/-- A rule that leads to a template, compiled without pages. -/
def toTemplate (rule : String) (t : Template) : Route :=
  ⟨rule, (Pattern.compile rule .empty {}).toOption.getD default, .template t⟩

/-- What a rule can make of a request, unless a handler or the store fails. -/
inductive Tried (store : Store) (route : Route) (ctx : Context) :
    Attempt → List Token → Context → Prop
  | missed (hcaptures : route.pattern.regex.captures? ctx.path = none) :
    Tried store route ctx { verdict := .noMatch } [] ctx
  | rejected {t : Template} {tokens : List Token} {ctx' : Context}
    (hdest : route.destination = .template t) (hasked : ctx.AfterInquiry ctx') :
    Tried store route ctx { verdict := .rejected } tokens ctx'
  | reached {t : Template} {tokens : List Token} {ctx' : Context}
    (hdest : route.destination = .template t) (hasked : ctx.AfterInquiry ctx') :
    Tried store route ctx (.ofTemplate { ctx' with template := some t }) tokens
      { ctx' with template := some t }
  | handled {h : Handler (Option String)} {captures : List (Option String)} {body : Option String}
    (hdest : route.destination = .handler h)
    (hcaptures : route.pattern.regex.captures? ctx.path = some captures)
    (hanswer : (h.run store (Token.ofCaptures route.pattern captures) ctx).answer = .ok body) :
    Tried store route ctx
      (.ofAnswer body (h.run store (Token.ofCaptures route.pattern captures) ctx).context)
      (h.run store (Token.ofCaptures route.pattern captures) ctx).tokens
      (h.run store (Token.ofCaptures route.pattern captures) ctx).context

theorem tried_of_attempt (h : (route.attempt store ctx).answer = .ok attempt) :
    Tried store route ctx attempt (route.attempt store ctx).tokens
      (route.attempt store ctx).context := by
  unfold Route.attempt at h ⊢
  cases hcaptures : route.pattern.regex.captures? ctx.path with
  | none =>
    simp only [hcaptures] at h ⊢
    cases h
    exact .missed hcaptures
  | some captures =>
    simp only [hcaptures] at h ⊢
    generalize htokens : Token.ofCaptures route.pattern captures = tokens at h ⊢
    cases hdest : route.destination with
    | template t =>
      simp only [hdest, Destination.reach, Progress.andThen] at h ⊢
      have hasked : ctx.AfterInquiry
          (if route.pattern.needsStore then Token.validate store tokens ctx
            else ⟨.ok true, tokens, ctx⟩).context := by
        split
        · exact .validate ..
        · exact .refl ctx
      revert h hasked
      generalize (if route.pattern.needsStore then Token.validate store tokens ctx
        else ⟨.ok true, tokens, ctx⟩) = checked
      intro h hasked
      obtain ⟨_ | valid, checkedTokens, checkedContext⟩ := checked
      · cases h
      · cases valid <;> cases h
        · exact .rejected hdest hasked
        · exact .reached hdest hasked
    | handler hd =>
      simp only [hdest, Destination.reach, Progress.andThen] at h ⊢
      subst htokens
      cases hanswer : (hd.run store (Token.ofCaptures route.pattern captures) ctx).answer with
      | error e =>
        simp only [hanswer] at h
        cases h
      | ok body =>
        simp only [hanswer] at h ⊢
        cases h
        exact .handled hdest hcaptures hanswer

/-- The handler of the rule puts a new context in place of the one that it finds. -/
def Renews (store : Store) (route : Route) (ctx : Context) : Prop :=
  ∃ h captures, route.destination = .handler h ∧
    route.pattern.regex.captures? ctx.path = some captures ∧
    h.renews store (Token.ofCaptures route.pattern captures) ctx = true

theorem isPage_attempt_iff : (route.attempt store ctx).context.isPage = true ↔
    ctx.isPage = true ∧ ¬route.Renews store ctx := by
  unfold attempt
  cases hcaptures : route.pattern.regex.captures? ctx.path with
  | none =>
    have hkept : ¬route.Renews store ctx := by
      rintro ⟨-, captures, -, hsome, -⟩
      cases hcaptures.symm.trans hsome
    exact (and_iff_left hkept).symm
  | some captures =>
    cases hdest : route.destination with
    | template t =>
      have hkept : ¬route.Renews store ctx := by
        rintro ⟨h, -, hhandler, -⟩
        cases hdest.symm.trans hhandler
      simp only [Destination.isPage_reach_template, and_iff_left hkept]
    | handler h =>
      have hrenews : route.Renews store ctx ↔
          h.renews store (Token.ofCaptures route.pattern captures) ctx = true := by
        constructor
        · rintro ⟨h', captures', hhandler, hsome, hrenews⟩
          cases hdest.symm.trans hhandler
          cases hcaptures.symm.trans hsome
          exact hrenews
        · exact fun hrenews => ⟨h, captures, hdest, hcaptures, hrenews⟩
      simp only [Destination.isPage_reach_handler, hrenews, Bool.and_eq_true, Bool.not_eq_true',
        Bool.not_eq_true, and_comm]

theorem isPage_attempt (hkept : ¬route.Renews store ctx) :
    (route.attempt store ctx).context.isPage = ctx.isPage :=
  Bool.eq_iff_iff.2 (isPage_attempt_iff.trans (and_iff_left hkept))

theorem isPage_attempt_eq_false (h : ctx.isPage = false ∨ route.Renews store ctx) :
    (route.attempt store ctx).context.isPage = false := by
  rw [← Bool.not_eq_true, isPage_attempt_iff]
  rintro ⟨hpage, hkept⟩
  rcases h with hctx | hrenews
  · rw [hctx] at hpage
    cases hpage
  · exact hkept hrenews

theorem Tried.isEnded {tokens : List Token} (h : Tried store route ctx attempt tokens ctx')
    (hctx : ctx.isEnded = false) (hfinal : attempt.verdict.isFinal = false) :
    ctx'.isEnded = false := by
  cases h with
  | missed => exact hctx
  | rejected _ hasked => exact hasked.isEnded.trans hctx
  | reached _ hasked => exact hasked.isEnded.trans hctx
  | handled =>
    rcases Attempt.ofAnswer_cases _ _ with ⟨hended, -⟩ | ⟨hverdict, -⟩
    · exact hended
    · rcases hverdict with hverdict | hverdict <;>
      · rw [hverdict] at hfinal
        cases hfinal

theorem Tried.of_answered {tokens : List Token} (h : Tried store route ctx attempt tokens ctx')
    (hverdict : attempt.verdict = .emitted ∨ attempt.verdict = .notFound) :
    ∃ hd captures body, route.destination = .handler hd ∧
      route.pattern.regex.captures? ctx.path = some captures ∧
      (hd.run store (Token.ofCaptures route.pattern captures) ctx).answer = .ok body ∧
      attempt = .ofAnswer body (hd.run store (Token.ofCaptures route.pattern captures) ctx).context := by
  cases h with
  | missed | rejected => simp at hverdict
  | reached => exact absurd hverdict (Attempt.not_answered_ofTemplate _)
  | handled hdest hcaptures hanswer => exact ⟨_, _, _, hdest, hcaptures, hanswer, rfl⟩

theorem Tried.template {tokens : List Token} (h : Tried store route ctx attempt tokens ctx')
    (hfinal : attempt.verdict.isFinal = false) (hset : ctx'.hasTemplate = true) :
    ctx'.template = ctx.template := by
  have hunset : ∀ c, (Attempt.ofTemplate c).verdict.isFinal = false → c.hasTemplate ≠ true :=
    fun c hc => by rw [← Attempt.isFinal_ofTemplate, hc]; exact Bool.false_ne_true
  cases h with
  | missed => rfl
  | rejected _ hasked => exact hasked.template
  | reached => exact absurd hset (hunset _ hfinal)
  | handled =>
    rcases Attempt.ofAnswer_cases _ _ with ⟨-, heq⟩ | ⟨hverdict, -⟩
    · exact absurd hset (hunset _ (heq ▸ hfinal))
    · rcases hverdict with hverdict | hverdict <;>
      · rw [hverdict] at hfinal
        cases hfinal

end Route

/-! ## Rules that are passed over -/

namespace Metrics

/-- The metrics after more rules with these verdicts. -/
def recordAll (m : Metrics) (tried : List (Route × Verdict)) : Metrics :=
  tried.foldl (fun m r => m.record r.1 r.2) m

theorem trace_recordAll (m : Metrics) (tried : List (Route × Verdict)) :
    (m.recordAll tried).trace = m.trace ++ tried.map fun r => r.1.traced r.2 := by
  induction tried generalizing m with
  | nil => exact (List.append_nil _).symm
  | cons r tried ih =>
    rw [recordAll, List.foldl_cons]
    exact (ih _).trans (by simp [record, Route.traced])

theorem getLast?_trace_record (m : Metrics) (route : Route) (verdict : Verdict) :
    (m.record route verdict).trace.getLast?.map TraceEntry.verdict = some verdict := by
  simp [record]

end Metrics

namespace Walk

/-- Rules that decide nothing, with their verdicts, and the contexts before and after them. -/
inductive Passes (store : Store) : List (Route × Verdict) → Context → Context → Prop
  | nil (ctx : Context) : Passes store [] ctx ctx
  | cons {route : Route} {attempt : Attempt} {tried : List (Route × Verdict)} {ctx ctx' : Context}
    (hanswer : (route.attempt store ctx).answer = .ok attempt)
    (hfinal : attempt.verdict.isFinal = false)
    (hrest : Passes store tried (route.attempt store ctx).context ctx') :
    Passes store ((route, attempt.verdict) :: tried) ctx ctx'

variable {tried : List (Route × Verdict)} {routes : List Route} {metrics : Metrics}
  {decision : Option Decision}

theorem Passes.append_iff {passed later : List (Route × Verdict)} :
    Passes store (passed ++ later) ctx ctx' ↔
      ∃ mid, Passes store passed ctx mid ∧ Passes store later mid ctx' := by
  constructor
  · intro h
    induction passed generalizing ctx with
    | nil => exact ⟨ctx, .nil ctx, h⟩
    | cons r passed ih =>
      cases h with
      | cons hanswer hfinal hrest =>
        obtain ⟨mid, hpassed, hlater⟩ := ih hrest
        exact ⟨mid, .cons hanswer hfinal hpassed, hlater⟩
  · rintro ⟨mid, hpassed, hlater⟩
    induction hpassed with
    | nil => exact hlater
    | cons hanswer hfinal _ ih => exact .cons hanswer hfinal (ih hlater)

theorem Passes.invariant {P : Context → Prop}
    (hstep : ∀ {route ctx attempt tokens ctx'}, Route.Tried store route ctx attempt tokens ctx' →
      attempt.verdict.isFinal = false → P ctx → P ctx')
    (h : Passes store tried ctx ctx') (hctx : P ctx) : P ctx' := by
  induction h with
  | nil => exact hctx
  | cons hanswer hfinal _ ih => exact ih (hstep (Route.tried_of_attempt hanswer) hfinal hctx)

theorem Passes.isPage (h : Passes store tried ctx ctx')
    (hkept : ∀ before route verdict after mid, tried = before ++ (route, verdict) :: after →
      Passes store before ctx mid → ¬route.Renews store mid) : ctx'.isPage = ctx.isPage := by
  induction h with
  | nil => rfl
  | @cons route attempt tried ctx ctx' hanswer hfinal hrest ih =>
    have hturn := Route.isPage_attempt (hkept [] route attempt.verdict tried ctx rfl (.nil ctx))
    refine (ih fun before r verdict after mid hsplit hbefore => ?_).trans hturn
    exact hkept ((route, attempt.verdict) :: before) r verdict after mid
      (congrArg (_ :: ·) hsplit) (.cons hanswer hfinal hbefore)

theorem Passes.isPage_eq_false (h : Passes store tried ctx ctx') (hctx : ctx.isPage = false) :
    ctx'.isPage = false := by
  induction h with
  | nil => exact hctx
  | cons _ _ _ ih => exact ih (Route.isPage_attempt_eq_false (.inl hctx))

theorem Passes.isEnded (h : Passes store tried ctx ctx') (hctx : ctx.isEnded = false) :
    ctx'.isEnded = false :=
  h.invariant (P := fun c => c.isEnded = false)
    (fun htried hfinal hctx => htried.isEnded hctx hfinal) hctx

theorem Passes.template (h : Passes store tried ctx ctx') (hset : ctx'.hasTemplate = true) :
    ctx'.template = ctx.template := by
  refine h.invariant (P := fun c => c.hasTemplate = true → c.template = ctx.template)
    (fun {_ before _ _ after} htried hfinal hctx hset => ?_) (fun _ => rfl) hset
  have hkept : after.template = before.template := htried.template hfinal hset
  rw [Context.hasTemplate, hkept] at hset
  exact hkept.trans (hctx hset)

theorem Passes.isFinal (h : Passes store tried ctx ctx') :
    ∀ r ∈ tried, r.2.isFinal = false := by
  induction h with
  | nil => simp
  | cons _ hfinal _ ih =>
    intro r hr
    rcases List.mem_cons.1 hr with rfl | hr
    · exact hfinal
    · exact ih r hr

/-- The context that rules leave when they are tried in a row. -/
def reached (store : Store) (routes : List Route) (ctx : Context) : Context :=
  routes.foldl (fun ctx route => (route.attempt store ctx).context) ctx

theorem Passes.reached_eq (h : Passes store tried ctx ctx') :
    reached store (tried.map Prod.fst) ctx = ctx' := by
  induction h with
  | nil => rfl
  | cons _ _ _ ih => exact ih

theorem along_passes (h : Passes store tried ctx ctx') (routes : List Route) (metrics : Metrics) :
    along store (tried.map Prod.fst ++ routes) ctx metrics =
      along store routes ctx' (metrics.recordAll tried) := by
  induction h generalizing metrics with
  | nil => rfl
  | cons hanswer hfinal _ ih =>
    rw [List.map_cons, List.cons_append, along, hanswer]
    simp only [hfinal]
    exact ih _

theorem along_decided (hanswer : (route.attempt store ctx).answer = .ok attempt)
    (hfinal : attempt.verdict.isFinal = true) (routes : List Route) (metrics : Metrics) :
    along store (route :: routes) ctx metrics =
      ⟨.ok (some ⟨route, attempt, (route.attempt store ctx).tokens⟩),
        (route.attempt store ctx).context, metrics.record route attempt.verdict⟩ := by
  rw [along, hanswer]
  simp only [hfinal, if_true]

theorem along_metrics (store : Store) (routes : List Route) (ctx : Context)
    (metrics metrics' : Metrics) :
    (along store routes ctx metrics).decision = (along store routes ctx metrics').decision ∧
      (along store routes ctx metrics).context = (along store routes ctx metrics').context := by
  induction routes generalizing ctx metrics metrics' with
  | nil => exact ⟨rfl, rfl⟩
  | cons route routes ih =>
    rw [along, along]
    cases (route.attempt store ctx).answer with
    | error e => exact ⟨rfl, rfl⟩
    | ok attempt =>
      simp only
      split
      · exact ⟨rfl, rfl⟩
      · exact ih ..

theorem prefix_trace_along (store : Store) (routes : List Route) (ctx : Context)
    (metrics : Metrics) : metrics.trace <+: (along store routes ctx metrics).metrics.trace := by
  induction routes generalizing ctx metrics with
  | nil => exact List.prefix_rfl
  | cons route routes ih =>
    rw [along]
    cases (route.attempt store ctx).answer with
    | error e => exact List.prefix_rfl
    | ok attempt =>
      have hrecord : metrics.trace <+: (metrics.record route attempt.verdict).trace :=
        List.prefix_append ..
      simp only
      split
      · exact hrecord
      · exact hrecord.trans (ih ..)

/-- A walk without failure passes over all rules, or over those before the one that decides. -/
theorem passes_of_along (h : (along store routes ctx metrics).decision = .ok decision) :
    (∃ tried ctx', tried.map Prod.fst = routes ∧ Passes store tried ctx ctx' ∧
        along store routes ctx metrics = ⟨.ok none, ctx', metrics.recordAll tried⟩) ∨
      ∃ tried route later ctx' attempt, routes = tried.map Prod.fst ++ route :: later ∧
        Passes store tried ctx ctx' ∧ (route.attempt store ctx').answer = .ok attempt ∧
        attempt.verdict.isFinal = true := by
  induction routes generalizing ctx metrics with
  | nil => exact .inl ⟨[], ctx, rfl, .nil ctx, rfl⟩
  | cons route routes ih =>
    cases hanswer : (route.attempt store ctx).answer with
    | error e =>
      rw [along, hanswer] at h
      cases h
    | ok attempt =>
      cases hfinal : attempt.verdict.isFinal with
      | true => exact .inr ⟨[], route, routes, ctx, attempt, rfl, .nil ctx, hanswer, hfinal⟩
      | false =>
        have halong : along store (route :: routes) ctx metrics =
            along store routes (route.attempt store ctx).context
              (metrics.record route attempt.verdict) := by
          rw [along, hanswer]
          simp only [hfinal]
          rfl
        rw [halong] at h ⊢
        rcases ih h with ⟨tried, ctx', rfl, hpasses, hwalk⟩ |
          ⟨tried, last, later, ctx', final, rfl, hpasses, hlast, hdecides⟩
        · exact .inl ⟨(route, attempt.verdict) :: tried, ctx', rfl,
            .cons hanswer hfinal hpasses, hwalk⟩
        · exact .inr ⟨(route, attempt.verdict) :: tried, last, later, ctx', final, rfl,
            .cons hanswer hfinal hpasses, hlast, hdecides⟩

theorem passes_of_undecided (h : (along store routes ctx metrics).decision = .ok none) :
    ∃ tried ctx', tried.map Prod.fst = routes ∧ Passes store tried ctx ctx' ∧
      along store routes ctx metrics = ⟨.ok none, ctx', metrics.recordAll tried⟩ := by
  rcases passes_of_along h with hall |
    ⟨tried, route, later, ctx', attempt, rfl, hpasses, hanswer, hfinal⟩
  · exact hall
  · rw [along_passes hpasses, along_decided hanswer hfinal] at h
    cases h

end Walk

/-! ## The whole dispatch -/

theorem Context.isPage_fill (ctx : Context) (tokens : List Token) :
    (ctx.fill tokens).isPage = ctx.isPage := by
  unfold fill
  split
  · exact (AfterInquiry.exportAll tokens ctx).isPage
  · rfl

namespace RouteTable

variable {table : RouteTable} {path : String} {d : Dispatch} {m : Metrics}

/-- The handler of the table puts a new context in place of the one that a request starts with. -/
def RenewedBefore (table : RouteTable) (store : Store) (path : String) : Prop :=
  ∃ h, table.before = some h ∧ h.renews store [] (table.start path) = true

theorem isPage_prepare (hkept : ¬table.RenewedBefore store path) :
    (table.prepare store path).context.isPage =
      table.pages.owns ("/" ++ Text.dropTrailingSlashes path) := by
  unfold prepare
  cases hbefore : table.before with
  | none => rfl
  | some h =>
    cases hrenews : h.renews store [] (table.start path) with
    | true => exact absurd ⟨h, hbefore, hrenews⟩ hkept
    | false =>
      simp only [Handler.run_isPage, hrenews]
      rfl

theorem isPage_prepare_eq_false (store : Store)
    (h : table.pages.owns ("/" ++ Text.dropTrailingSlashes path) = false) :
    (table.prepare store path).context.isPage = false := by
  have hstart : (table.start path).isPage = false := h
  unfold prepare
  split
  · rw [Handler.run_isPage, hstart, Bool.and_false]
  · exact hstart

theorem finish_emitted (table : RouteTable) (route : Route) (tokens : List Token) (ctx : Context)
    (h : attempt.verdict = .emitted) :
    table.finish (some ⟨route, attempt, tokens⟩) ctx =
      .ofContext ctx (.emit (ctx.response attempt.body)) tokens := by
  simp only [finish, h]

theorem finish_notFound (table : RouteTable) (route : Route) (tokens : List Token) (ctx : Context)
    (h : attempt.verdict = .notFound) :
    table.finish (some ⟨route, attempt, tokens⟩) ctx = .ofContext ctx .notFound tokens := by
  simp only [finish, h]

theorem finish_selected (table : RouteTable) (route : Route) (tokens : List Token) (ctx : Context)
    (h : attempt.verdict = .selected) :
    table.finish (some ⟨route, attempt, tokens⟩) ctx =
      table.finishSelected route.pattern tokens ctx := by
  simp only [finish, h]

/-- How a dispatch comes to its end, after the handler of its table. -/
inductive Course (table : RouteTable) (store : Store) (path : String) : Dispatch → Metrics → Prop
  | ended {d : Dispatch} (hended : ended? (table.prepare store path).context = some d) :
    Course table store path d { lookups := (table.prepare store path).context.lookups }
  | undecided {tried : List (Route × Verdict)} {ctx : Context}
    (hended : ended? (table.prepare store path).context = none)
    (hroutes : table.routes = tried.map Prod.fst)
    (hpasses : Walk.Passes store tried (table.prepare store path).context ctx) :
    Course table store path (table.finish none ctx)
      { Metrics.recordAll {} tried with lookups := ctx.lookups }
  | decided {tried : List (Route × Verdict)} {route : Route} {later : List Route} {ctx : Context}
    {attempt : Attempt}
    (hended : ended? (table.prepare store path).context = none)
    (hroutes : table.routes = tried.map Prod.fst ++ route :: later)
    (hpasses : Walk.Passes store tried (table.prepare store path).context ctx)
    (hanswer : (route.attempt store ctx).answer = .ok attempt)
    (hfinal : attempt.verdict.isFinal = true) :
    Course table store path
      (table.finish (some ⟨route, attempt, (route.attempt store ctx).tokens⟩)
        (route.attempt store ctx).context)
      { (Metrics.recordAll {} tried).record route attempt.verdict with
        lookups := (route.attempt store ctx).context.lookups }

theorem dispatch_ended (hbefore : (table.prepare store path).answer = .ok ())
    (hended : ended? (table.prepare store path).context = some d) :
    (table.dispatch store path).result =
      .ok (d, { lookups := (table.prepare store path).context.lookups }) := by
  rw [dispatch]
  simp only [hbefore, hended]

theorem dispatch_walk (hbefore : (table.prepare store path).answer = .ok ())
    (hended : ended? (table.prepare store path).context = none) :
    (table.dispatch store path).result =
      let walk := Walk.along store table.routes (table.prepare store path).context {}
      walk.decision.map fun decision =>
        (table.finish decision walk.context,
          { walk.metrics with lookups := walk.context.lookups }) := by
  rw [dispatch]
  simp only [hbefore, hended]

theorem trace_of_dispatch (hbefore : (table.prepare store path).answer = .ok ())
    (hended : ended? (table.prepare store path).context = none)
    (h : (table.dispatch store path).result = .ok (d, m)) :
    m.trace = (Walk.along store table.routes (table.prepare store path).context {}).metrics.trace := by
  rw [dispatch_walk hbefore hended] at h
  obtain ⟨decision, -, heq⟩ := except_map_eq_ok.1 h
  cases heq
  rfl

theorem dispatch_of_course (hbefore : (table.prepare store path).answer = .ok ())
    (h : Course table store path d m) : (table.dispatch store path).result = .ok (d, m) := by
  cases h with
  | ended hended => exact dispatch_ended hbefore hended
  | undecided hended hroutes hpasses =>
    have hwalk := Walk.along_passes hpasses [] {}
    rw [List.append_nil, ← hroutes] at hwalk
    rw [dispatch_walk hbefore hended, hwalk]
    rfl
  | @decided tried route later ctx attempt hended hroutes hpasses hanswer hfinal =>
    have hwalk := Walk.along_passes hpasses (route :: later) {}
    rw [← hroutes, Walk.along_decided hanswer hfinal] at hwalk
    rw [dispatch_walk hbefore hended, hwalk]
    rfl

theorem course_of_dispatch (h : (table.dispatch store path).result = .ok (d, m)) :
    (table.prepare store path).answer = .ok () ∧ Course table store path d m := by
  cases hbefore : (table.prepare store path).answer with
  | error e =>
    rw [dispatch] at h
    simp only [hbefore] at h
    cases h
  | ok answer =>
    refine ⟨rfl, ?_⟩
    cases hended : ended? (table.prepare store path).context with
    | some ended =>
      rw [dispatch_ended hbefore hended] at h
      cases h
      exact .ended hended
    | none =>
      rw [dispatch_walk hbefore hended] at h
      obtain ⟨decision, hdecision, heq⟩ := except_map_eq_ok.1 h
      rcases Walk.passes_of_along hdecision with ⟨tried, ctx, hroutes, hpasses, hwalk⟩ |
        ⟨tried, route, later, ctx, attempt, hroutes, hpasses, hanswer, hfinal⟩
      · have hcourse := Course.undecided hended hroutes.symm hpasses
        have hresult := dispatch_of_course hbefore hcourse
        rw [dispatch_walk hbefore hended] at hresult
        cases h.symm.trans hresult
        exact hcourse
      · have hcourse := Course.decided hended hroutes hpasses hanswer hfinal
        have hresult := dispatch_of_course hbefore hcourse
        rw [dispatch_walk hbefore hended] at hresult
        cases h.symm.trans hresult
        exact hcourse

end RouteTable

end Signpost
