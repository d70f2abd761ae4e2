import Signpost.Proofs.Dispatch.Outward
import Signpost.Proofs.Dispatch.Walk

/-!
# The first rule that qualifies

Among rules with templates the first one decides whose expression matches and whose tokens the store
confirms. The rules before it leave nothing behind but the questions they asked, so the dispatch is
that of a table with this rule only.
-/

namespace Signpost

variable {store : Store} {ctx ctx' : Context} {route : Route} {t : Template}

/-! ## One rule -/

namespace Route

/-- Whether a rule is one for a path: its expression matches, and the store has rows for all
tokens. -/
def qualifies (store : Store) (path : String) (route : Route) : Bool :=
  match route.pattern.regex.captures? path with
  | some captures => (Token.ofCaptures route.pattern captures).all (Token.confirmed store)
  | none => false

/-- What a rule that does not qualify is noted down as. -/
def refusal (path : String) (route : Route) : Verdict :=
  if (route.pattern.regex.captures? path).isSome then .rejected else .noMatch

/-- Rules with the verdicts of rules that do not qualify. -/
def refused (path : String) (routes : List Route) : List (Route × Verdict) :=
  routes.map fun r => (r, r.refusal path)

theorem map_fst_refused (path : String) (routes : List Route) :
    (refused path routes).map Prod.fst = routes := by
  rw [refused, List.map_map]
  exact List.map_id routes

theorem refusal_isFinal (path : String) (route : Route) : (route.refusal path).isFinal = false := by
  unfold refusal
  split <;> rfl

theorem attempt_refused (hstore : store.Total) (hdest : route.destination = .template t)
    (h : route.qualifies store ctx.path = false) :
    (route.attempt store ctx).answer = .ok { verdict := route.refusal ctx.path } ∧
      (route.attempt store ctx).context.outward = ctx.outward := by
  unfold qualifies at h
  unfold attempt refusal
  cases hcaptures : route.pattern.regex.captures? ctx.path with
  | none => exact ⟨rfl, rfl⟩
  | some captures =>
    simp only [hcaptures] at h
    have hneeds : route.pattern.needsStore = true := by
      cases hneeds : route.pattern.needsStore with
      | true => rfl
      | false => rw [Token.all_confirmed hneeds] at h; cases h
    obtain ⟨hanswer, hcontext⟩ := Token.validate_rejected hstore ctx h
    simp only [hdest, Destination.reach, hneeds, if_true, Progress.andThen, hanswer]
    exact ⟨rfl, Context.outward_eq_of_unasked hcontext⟩

theorem attempt_selected (hstore : store.Total) (hdest : route.destination = .template t)
    (hset : t.isSet = true) (h : route.qualifies store ctx.path = true) :
    (route.attempt store ctx).answer = .ok { verdict := .selected } := by
  unfold qualifies at h
  unfold attempt
  cases hcaptures : route.pattern.regex.captures? ctx.path with
  | none => simp only [hcaptures] at h; cases h
  | some captures =>
    simp only [hcaptures] at h
    have hanswer := Token.validate_confirmed hstore ctx h
    simp only [hdest, Destination.reach]
    split <;> simp [Progress.andThen, hanswer, Attempt.ofTemplate, Context.hasTemplate, hset]

end Route

/-! ## All rules -/

/-- Every rule of the table leads to a template with a group and a name. -/
def RouteTable.AllTemplates (table : RouteTable) : Prop :=
  ∀ route ∈ table.routes, ∃ t, route.destination = .template t ∧ t.isSet = true

theorem Walk.passes_refused {passed : List Route} (hstore : store.Total)
    (hdest : ∀ route ∈ passed, ∃ t, route.destination = .template t ∧ t.isSet = true)
    (hrefused : ∀ route ∈ passed, route.qualifies store ctx.path = false) :
    ∃ ctx', Passes store (Route.refused ctx.path passed) ctx ctx' ∧
      ctx'.outward = ctx.outward := by
  induction passed generalizing ctx with
  | nil => exact ⟨ctx, .nil ctx, rfl⟩
  | cons route passed ih =>
    obtain ⟨t, ht, -⟩ := hdest route List.mem_cons_self
    obtain ⟨hanswer, hcontext⟩ :=
      Route.attempt_refused hstore ht (hrefused route List.mem_cons_self)
    have hpath := Context.outward_isView.path_eq hcontext
    obtain ⟨ctx', hpasses, hctx'⟩ := @ih (route.attempt store ctx).context
      (fun r hr => hdest r (List.mem_cons_of_mem _ hr))
      (fun r hr => hpath ▸ hrefused r (List.mem_cons_of_mem _ hr))
    rw [hpath] at hpasses
    exact ⟨ctx', .cons hanswer (route.refusal_isFinal ctx.path) hpasses, hctx'.trans hcontext⟩

/-! ## The whole dispatch -/

namespace RouteTable

variable {table : RouteTable} {path : String}

theorem dispatch_undecided (hstore : store.Total) (htable : table.AllTemplates)
    (hbefore : (table.prepare store path).answer = .ok ())
    (hended : ended? (table.prepare store path).context = none)
    (hrefused : ∀ route ∈ table.routes,
      route.qualifies store (table.prepare store path).context.path = false) :
    ∃ d m m', (table.dispatch store path).result = .ok (d, m) ∧
      m.trace = table.routes.map
        (fun r => r.traced (r.refusal (table.prepare store path).context.path)) ∧
      ({ table with routes := [] }.dispatch store path).result = .ok (d, m') := by
  obtain ⟨ctx, hpasses, hctx⟩ := Walk.passes_refused hstore htable hrefused
  have hdispatch := dispatch_of_course hbefore
    (.undecided hended (Route.map_fst_refused ..).symm hpasses)
  rw [finish_alike table none hctx] at hdispatch
  have hempty : Course { table with routes := [] } store path _ _ := .undecided hended rfl (.nil _)
  refine ⟨_, _, _, hdispatch, ?_, dispatch_of_course hbefore hempty⟩
  simp [Metrics.trace_recordAll, Route.refused]

theorem dispatch_decided {passed later : List Route} (hstore : store.Total)
    (htable : table.AllTemplates) (hbefore : (table.prepare store path).answer = .ok ())
    (hended : ended? (table.prepare store path).context = none)
    (hroutes : table.routes = passed ++ route :: later)
    (hrefused : ∀ r ∈ passed, r.qualifies store (table.prepare store path).context.path = false)
    (h : route.qualifies store (table.prepare store path).context.path = true) :
    ∃ d m m', (table.dispatch store path).result = .ok (d, m) ∧
      m.trace = passed.map
        (fun r => r.traced (r.refusal (table.prepare store path).context.path)) ++
          [route.traced .selected] ∧
      ({ table with routes := [route] }.dispatch store path).result = .ok (d, m') := by
  obtain ⟨t, hdest, hset⟩ := htable route (by simp [hroutes])
  obtain ⟨ctx, hpasses, hctx⟩ := Walk.passes_refused hstore
    (fun r hr => htable r (by simp [hroutes, hr])) hrefused
  have hpath := Context.outward_isView.path_eq hctx
  have halike : Progress.Alike Context.outward (route.attempt store ctx)
      (route.attempt store (table.prepare store path).context) :=
    Route.attempt_alike (fun hd hhandler => by rw [hdest] at hhandler; cases hhandler) hctx
  have hdispatch := dispatch_of_course hbefore
    (.decided hended (by rw [Route.map_fst_refused, hroutes]) hpasses
      (Route.attempt_selected hstore hdest hset (hpath ▸ h)) rfl)
  rw [halike.tokens, finish_alike table _ halike.context] at hdispatch
  have halone : Course { table with routes := [route] } store path _ _ :=
    .decided hended rfl (.nil _) (Route.attempt_selected hstore hdest hset h) rfl
  refine ⟨_, _, _, hdispatch, ?_, dispatch_of_course hbefore halone⟩
  simp [Metrics.record, Metrics.trace_recordAll, Route.refused, Route.traced]

/-- The first rule that qualifies decides, as if it stood alone in the table. -/
theorem dispatch_first (hstore : store.Total) (htable : table.AllTemplates)
    (hbefore : (table.prepare store path).answer = .ok ())
    (hended : ended? (table.prepare store path).context = none) :
    let sought := (table.prepare store path).context.path
    ∃ d m, (table.dispatch store path).result = .ok (d, m) ∧
      ((∃ passed route later, table.routes = passed ++ route :: later ∧
          (∀ r ∈ passed, r.qualifies store sought = false) ∧
          route.qualifies store sought = true ∧
          m.trace = passed.map (fun r => r.traced (r.refusal sought)) ++ [route.traced .selected] ∧
          ∃ m', ({ table with routes := [route] }.dispatch store path).result = .ok (d, m')) ∨
        ((∀ r ∈ table.routes, r.qualifies store sought = false) ∧
          m.trace = table.routes.map (fun r => r.traced (r.refusal sought)) ∧
          ∃ m', ({ table with routes := [] }.dispatch store path).result = .ok (d, m'))) := by
  intro sought
  cases hfind : table.routes.find? (Route.qualifies store sought) with
  | none =>
    have hrefused : ∀ r ∈ table.routes, r.qualifies store sought = false := fun r hr => by
      simpa using List.find?_eq_none.1 hfind r hr
    obtain ⟨d, m, m', hd, htrace, hempty⟩ :=
      dispatch_undecided hstore htable hbefore hended hrefused
    exact ⟨d, m, hd, .inr ⟨hrefused, htrace, m', hempty⟩⟩
  | some route =>
    obtain ⟨h, passed, later, hroutes, hpassed⟩ := List.find?_eq_some_iff_append.1 hfind
    have hrefused : ∀ r ∈ passed, r.qualifies store sought = false := fun r hr => by
      simpa using hpassed r hr
    obtain ⟨d, m, m', hd, htrace, halone⟩ :=
      dispatch_decided hstore htable hbefore hended hroutes hrefused h
    exact ⟨d, m, hd, .inl ⟨passed, route, later, hroutes, hrefused, h, htrace, m', halone⟩⟩

/-! ### Two rules for numbers -/

def bareStore : Store :=
  ⟨fun _ => .ok [], fun _ => .ok [], fun _ => .ok [], fun _ => .ok []⟩

/-- A rule that the bare store never confirms, before one that needs no store. -/
def numbersTable : RouteTable where
  routes :=
    ["blog/:entry_id", "blog/:num"].map fun rule =>
      ⟨rule, (Pattern.compile rule .empty {}).toOption.getD default, .template ⟨"blog", "entry"⟩⟩
  before := some (.change (.global "section" "blog") (.done ()))

theorem bareStore_total : bareStore.Total :=
  ⟨fun _ => ⟨_, rfl⟩, fun _ => ⟨_, rfl⟩, fun _ => ⟨_, rfl⟩, fun _ => ⟨_, rfl⟩⟩

theorem allTemplates_numbers : numbersTable.AllTemplates := by
  intro route hroute
  obtain ⟨rule, -, rfl⟩ := List.mem_map.1 hroute
  exact ⟨_, rfl, rfl⟩

theorem dispatch_first_numbers :
    ∃ d m, (numbersTable.dispatch bareStore "blog/7").result = .ok (d, m) ∧
      m.trace.map TraceEntry.verdict = [.rejected, .selected] ∧
      ∃ route ∈ numbersTable.routes, ∃ m',
        ({ numbersTable with routes := [route] }.dispatch bareStore "blog/7").result =
          .ok (d, m') := by
  have hverdicts : ((numbersTable.dispatch bareStore "blog/7").result.toOption.map
      fun r => r.2.trace.map TraceEntry.verdict) = some [.rejected, .selected] := by
    decide +kernel
  have hsome : numbersTable.routes.any (Route.qualifies bareStore "blog/7") = true := by
    decide +kernel
  have hbefore : (numbersTable.prepare bareStore "blog/7").answer = .ok () := rfl
  obtain ⟨d, m, hd, h⟩ := dispatch_first bareStore_total allTemplates_numbers hbefore rfl
  rw [hd] at hverdicts
  refine ⟨d, m, hd, Option.some.inj hverdicts, ?_⟩
  rcases h with ⟨passed, route, later, hroutes, -, -, -, m', halone⟩ | ⟨hnone, -⟩
  · exact ⟨route, by simp [hroutes], m', halone⟩
  · obtain ⟨route, hroute, hq⟩ := List.any_eq_true.1 hsome
    exact Bool.noConfusion (hq.symm.trans (hnone route hroute))

end RouteTable

end Signpost
