import Signpost.Store.Memory
import Signpost.Proofs.Dispatch.Outward
import Signpost.Proofs.Dispatch.Walk

/-!
# Rules that decline

A rule that matches but leaves no template declines, and the rules after it have their turn. All that
it can leave behind is a template that is not set and the columns of the rows that its tokens were
checked against. Where it takes no template away and adds no column, the dispatch is the same without
it.
-/

namespace Signpost

variable {store : Store} {ctx ctx' : Context} {route : Route} {attempt : Attempt}

/-! ## What a rule leaves behind -/

/-- What a context may be after the turn of a rule that changes nothing on purpose: only the template,
the globals and the records may differ. -/
def Context.AfterTurn (ctx ctx' : Context) : Prop :=
  ctx' = { ctx with
    template := ctx'.template
    globals := ctx'.globals
    lookups := ctx'.lookups
    calls := ctx'.calls
    journal := ctx'.journal }

theorem Context.AfterInquiry.afterTurn (h : ctx.AfterInquiry ctx') (t : Option Template) :
    ctx.AfterTurn { ctx' with template := t } := by
  unfold AfterInquiry at h
  unfold AfterTurn
  rw [h]

theorem Context.AfterTurn.outward_eq (h : ctx.AfterTurn ctx') (hglobals : ctx'.globals = ctx.globals)
    (hbefore : ctx.hasTemplate = false) (hafter : ctx'.hasTemplate = false) :
    ctx'.outward = ctx.outward := by
  have hunset : ∀ c : Context, c.hasTemplate = false → c.template.filter Template.isSet = none := by
    intro c hc
    unfold hasTemplate at hc
    cases htemplate : c.template with
    | none => rfl
    | some t => simpa [htemplate] using hc
  have htemplate : ctx'.template.filter Template.isSet = ctx.template.filter Template.isSet :=
    (hunset ctx' hafter).trans (hunset ctx hbefore).symm
  unfold AfterTurn at h
  rw [h]
  simp only [outward, hglobals, htemplate]

namespace Route

/-- The rule leads to a template, or its handler keeps the context and makes no change to it when its
turn comes. -/
def Idle (store : Store) (route : Route) (ctx : Context) : Prop :=
  ∀ h captures, route.destination = .handler h →
    route.pattern.regex.captures? ctx.path = some captures →
      h.renews store (Token.ofCaptures route.pattern captures) ctx = false ∧
        h.changes store (Token.ofCaptures route.pattern captures) ctx = []

theorem Tried.declined {tokens : List Token} (h : Tried store route ctx attempt tokens ctx')
    (hidle : route.Idle store ctx) (hverdict : attempt.verdict = .declined) :
    ctx.AfterTurn ctx' ∧ ctx'.hasTemplate = false ∧
      ((∃ h, route.destination = .handler h) → ctx.hasTemplate = false) := by
  cases h with
  | missed | rejected => cases hverdict
  | reached hdest hasked =>
    refine ⟨hasked.afterTurn _, Attempt.not_hasTemplate_of_declined hverdict, ?_⟩
    rintro ⟨h, hhandler⟩
    rw [hdest] at hhandler
    cases hhandler
  | @handled h captures body hdest hcaptures hrun =>
    obtain ⟨hkept, hchanges⟩ := hidle h captures hdest hcaptures
    have hasked := h.run_afterInquiry _ ctx hkept hchanges
    rcases Attempt.ofAnswer_cases body
      (h.run store (Token.ofCaptures route.pattern captures) ctx).context with
      ⟨-, heq⟩ | ⟨hanswered, -⟩
    · have hunset := Attempt.not_hasTemplate_of_declined (heq ▸ hverdict)
      refine ⟨hasked.afterTurn _, hunset, fun _ => ?_⟩
      rw [hasked] at hunset
      exact hunset
    · rw [hverdict] at hanswered
      rcases hanswered with hanswered | hanswered <;> cases hanswered

theorem attempt_globals {t : Template} (hdest : route.destination = .template t)
    (hneeds : route.pattern.needsStore = false) :
    (route.attempt store ctx).context.globals = ctx.globals := by
  unfold attempt
  cases route.pattern.regex.captures? ctx.path with
  | none => rfl
  | some captures => simp [hdest, Destination.reach, hneeds, Progress.andThen]

end Route

/-! ## The turn of a rule -/

namespace RouteTable

variable {table : RouteTable} {path : String} {d : Dispatch} {m : Metrics}
  {passed later : List Route}

theorem Course.trace (h : Course table store path d m) (htrace : m.trace ≠ []) :
    ended? (table.prepare store path).context = none ∧
      ∃ tried rest ctx entries, table.routes = tried.map Prod.fst ++ rest ∧
        Walk.Passes store tried (table.prepare store path).context ctx ∧
        m.trace = tried.map (fun r => r.1.traced r.2) ++ entries ∧
        ∀ e ∈ entries, e.verdict.isFinal = true := by
  cases h with
  | ended => exact absurd rfl htrace
  | @undecided tried ctx hended hroutes hpasses =>
    refine ⟨hended, tried, [], ctx, [], by simp [hroutes], hpasses, ?_, by simp⟩
    simp [Metrics.trace_recordAll]
  | @decided tried route later ctx attempt hended hroutes hpasses hanswer hfinal =>
    refine ⟨hended, tried, route :: later, ctx, [route.traced attempt.verdict], hroutes, hpasses,
      ?_, ?_⟩
    · simp [Metrics.trace_recordAll, Metrics.record, Route.traced]
    · intro e he
      rw [List.mem_singleton.1 he]
      exact hfinal

theorem Course.turn {v : Verdict} (h : Course table store path d m)
    (hroutes : table.routes = passed ++ route :: later)
    (hverdict : m.trace[passed.length]?.map TraceEntry.verdict = some v)
    (hfinal : v.isFinal = false) :
    ended? (table.prepare store path).context = none ∧
      ∃ tried attempt, tried.map Prod.fst = passed ∧
        Walk.Passes store tried (table.prepare store path).context
          (Walk.reached store passed (table.prepare store path).context) ∧
        (route.attempt store (Walk.reached store passed (table.prepare store path).context)).answer =
          .ok attempt ∧
        attempt.verdict = v := by
  obtain ⟨entry, hentry, rfl⟩ := Option.map_eq_some_iff.1 hverdict
  obtain ⟨hended, tried, rest, ctx, entries, hsplit, hpasses, htrace, hentries⟩ :=
    h.trace (List.ne_nil_of_mem (List.mem_of_getElem? hentry))
  refine ⟨hended, ?_⟩
  rw [htrace] at hentry
  have hlt : passed.length < tried.length := by
    rcases Nat.lt_or_ge passed.length tried.length with hlt | hge
    · exact hlt
    · rw [List.getElem?_append_right (by simpa using hge)] at hentry
      have hdecided := hentries entry (List.mem_of_getElem? hentry)
      rw [hfinal] at hdecided
      cases hdecided
  rcases List.append_eq_append_iff.1 (hsplit.symm.trans hroutes) with
    ⟨between, hpassed, -⟩ | ⟨between, hmap, hbetween⟩
  · have hlength := congrArg List.length hpassed
    simp only [List.length_append, List.length_map] at hlength
    omega
  · cases between with
    | nil =>
      have hlength := congrArg List.length hmap
      simp only [List.length_append, List.length_map, List.length_nil] at hlength
      omega
    | cons r between =>
      obtain ⟨rfl, -⟩ := List.cons.inj hbetween
      obtain ⟨front, back, rfl, rfl, hback⟩ := List.map_eq_append_iff.1 hmap
      obtain ⟨⟨r, w⟩, back, rfl, rfl, -⟩ := List.map_eq_cons_iff.1 hback
      obtain ⟨mid, hfront, hturn⟩ := Walk.Passes.append_iff.1 hpasses
      rw [hfront.reached_eq]
      cases hturn with
      | @cons _ attempt _ _ _ hanswer =>
        refine ⟨front, attempt, rfl, hfront, hanswer, ?_⟩
        simp at hentry
        rw [← hentry]
        rfl

theorem dispatch_of_decision {routes : List Route} {decision : Option Decision}
    (hbefore : (table.prepare store path).answer = .ok ())
    (hended : ended? (table.prepare store path).context = none)
    (hdecision : (Walk.along store routes (table.prepare store path).context {}).decision =
      .ok decision) :
    ∃ m, ({ table with routes }.dispatch store path).result =
      .ok (table.finish decision
        (Walk.along store routes (table.prepare store path).context {}).context, m) := by
  have hwalk : ({ table with routes }.dispatch store path).result =
      (Walk.along store routes (table.prepare store path).context {}).decision.map fun decision =>
        (table.finish decision
            (Walk.along store routes (table.prepare store path).context {}).context,
          { (Walk.along store routes (table.prepare store path).context {}).metrics with
            lookups := (Walk.along store routes
              (table.prepare store path).context {}).context.lookups }) :=
    dispatch_walk hbefore hended
  rw [hdecision] at hwalk
  exact ⟨_, hwalk⟩

/-- Where the turn of a rule leaves what it found, or leaves nothing that counts to rules that are
discreet, the dispatch is the same without the rule. -/
theorem dispatch_skip {tried : List (Route × Verdict)}
    (hroutes : table.routes = tried.map Prod.fst ++ route :: later)
    (hended : ended? (table.prepare store path).context = none)
    (hpasses : Walk.Passes store tried (table.prepare store path).context ctx)
    (hanswer : (route.attempt store ctx).answer = .ok attempt)
    (hfinal : attempt.verdict.isFinal = false)
    (hturn : (route.attempt store ctx).context = ctx ∨
      ((route.attempt store ctx).context.outward = ctx.outward ∧
        ∀ r ∈ later, ∀ h, r.destination = .handler h → h.Discreet store))
    (h : (table.dispatch store path).result = .ok (d, m)) :
    ∃ m', ({ table with routes := tried.map Prod.fst ++ later }.dispatch store path).result =
      .ok (d, m') := by
  obtain ⟨hbefore, -⟩ := course_of_dispatch h
  -- The walk with the rule, from its turn on.
  have hpast : Walk.Passes store (tried ++ [(route, attempt.verdict)])
      (table.prepare store path).context (route.attempt store ctx).context :=
    Walk.Passes.append_iff.2 ⟨ctx, hpasses, .cons hanswer hfinal (.nil _)⟩
  have hwith := Walk.along_passes hpast later {}
  rw [List.map_append, List.append_assoc] at hwith
  rw [dispatch_walk hbefore hended, hroutes] at h
  obtain ⟨decision, hdecision, hdispatch⟩ := except_map_eq_ok.1 (hwith ▸ h)
  -- The walk without it, from the same place on.
  have hwithout := Walk.along_passes hpasses later {}
  have halike : ∀ metrics metrics',
      (Walk.along store later ctx metrics).decision =
          (Walk.along store later (route.attempt store ctx).context metrics').decision ∧
        (Walk.along store later ctx metrics).context.outward =
          (Walk.along store later (route.attempt store ctx).context metrics').context.outward := by
    intro metrics metrics'
    rcases hturn with hsame | ⟨houtward, hdiscreet⟩
    · rw [hsame]
      obtain ⟨hdecision, hcontext⟩ := Walk.along_metrics store later ctx metrics metrics'
      exact ⟨hdecision, congrArg _ hcontext⟩
    · exact Walk.along_alike hdiscreet houtward.symm metrics metrics'
  obtain ⟨hdecisions, hcontexts⟩ := halike (Metrics.recordAll {} tried)
    (Metrics.recordAll {} (tried ++ [(route, attempt.verdict)]))
  have hfinish := (finish_alike table decision hcontexts).trans (congrArg Prod.fst hdispatch)
  obtain ⟨m', hresult⟩ := dispatch_of_decision hbefore hended
    (hwithout ▸ hdecisions.trans hdecision)
  rw [hwithout, hfinish] at hresult
  exact ⟨m', hresult⟩

/-- A rule that declines leaves behind at most a template that is not set, which takes the place of one
that was set before it, and the globals of its tokens. Where it does neither, the dispatch is the same
without it, as long as the handlers of later rules look at what counts only; and so it is, whatever
later handlers look at, where the rule leaves what it found. -/
theorem dispatch_without_declined (hroutes : table.routes = passed ++ route :: later)
    (h : (table.dispatch store path).result = .ok (d, m))
    (hverdict : m.trace[passed.length]?.map TraceEntry.verdict = some .declined)
    (hidle : route.Idle store (Walk.reached store passed (table.prepare store path).context)) :
    let before := Walk.reached store passed (table.prepare store path).context
    let after := (route.attempt store before).context
    before.AfterTurn after ∧ after.hasTemplate = false ∧
      ((∃ h, route.destination = .handler h) → before.hasTemplate = false) ∧
      ((∃ t, route.destination = .template t) → route.pattern.needsStore = false →
        after.globals = before.globals) ∧
      (after = before ∨ (before.hasTemplate = false ∧ after.globals = before.globals ∧
          ∀ r ∈ later, ∀ h, r.destination = .handler h → h.Discreet store) →
        ∃ m', ({ table with routes := passed ++ later }.dispatch store path).result =
          .ok (d, m')) := by
  obtain ⟨-, hcourse⟩ := course_of_dispatch h
  obtain ⟨hended, tried, attempt, rfl, hpasses, hanswer, hdeclined⟩ :=
    hcourse.turn hroutes hverdict rfl
  intro before after
  obtain ⟨hturn, hunset, hhandler⟩ := (Route.tried_of_attempt hanswer).declined hidle hdeclined
  refine ⟨hturn, hunset, hhandler, ?_, fun hsame => ?_⟩
  · rintro ⟨t, hdest⟩ hneeds
    exact Route.attempt_globals hdest hneeds
  · have hfinal : attempt.verdict.isFinal = false := by rw [hdeclined]; rfl
    apply dispatch_skip hroutes hended hpasses hanswer hfinal _ h
    rcases hsame with hsame | ⟨hbefore, hglobals, hdiscreet⟩
    · exact .inl hsame
    · exact .inr ⟨hturn.outward_eq hglobals hbefore hunset, hdiscreet⟩

/-! ### Rules without a template -/

def namelessRule : Route := .toTemplate "blog/:any" ⟨"blog", ""⟩

/-- A rule with a handler that looks at the path. -/
def entryRule : Route :=
  { namelessRule with
    destination := .handler (.look fun ctx _ =>
      .change (.template ⟨"blog", if ctx.path = "blog/about" then "about" else "entry"⟩)
        (.done none)) }

/-- A rule that leads nowhere, before one for the same paths. -/
def blogTable : RouteTable where
  routes := [namelessRule, entryRule]

theorem dispatch_without_declined_blog :
    ∃ d m m', (blogTable.dispatch (MemoryStore.toStore {}) "blog/hello").result = .ok (d, m) ∧
      m.trace.map TraceEntry.verdict = [.declined, .selected] ∧
      ({ blogTable with routes := [entryRule] }.dispatch (MemoryStore.toStore {})
        "blog/hello").result = .ok (d, m') := by
  have hroutes : blogTable.routes = [] ++ namelessRule :: [entryRule] := rfl
  have hverdicts : ((blogTable.dispatch (MemoryStore.toStore {}) "blog/hello").result.toOption.map
      fun r => r.2.trace.map TraceEntry.verdict) = some [.declined, .selected] := by
    decide +kernel
  obtain ⟨⟨d, m⟩, hresult, htrace⟩ := Option.map_eq_some_iff.1 hverdicts
  have hdeclined : m.trace[([] : List Route).length]?.map TraceEntry.verdict = some .declined := by
    rw [List.length_nil, ← List.getElem?_map, htrace]
    rfl
  have hneeds : namelessRule.pattern.needsStore = false := by decide +kernel
  obtain ⟨-, -, -, hglobals, hskip⟩ := dispatch_without_declined hroutes (ok_of_toOption hresult)
    hdeclined (fun _ _ hhandler => by cases hhandler)
  have hdiscreet : ∀ r ∈ [entryRule], ∀ h, r.destination = .handler h →
      h.Discreet (MemoryStore.toStore {}) := by
    intro r hr h hhandler
    rw [List.mem_singleton.1 hr] at hhandler
    cases hhandler
    exact Handler.discreet_of_looksOutward _ fun ctx tokens => ⟨rfl, trivial⟩
  obtain ⟨m', hwithout⟩ :=
    hskip (.inr ⟨by decide +kernel, hglobals ⟨_, rfl⟩ hneeds, hdiscreet⟩)
  exact ⟨d, m, m', ok_of_toOption hresult, htrace, hwithout⟩

def entryStore : Store :=
  MemoryStore.toStore
    { entries := [.ofList [("entry_id", "7"), ("title", "Hello"), ("url_title", "hello"),
        ("channel_id", "1")]] }

/-- A rule for entries that leads nowhere, after a handler that has set a template. -/
def maintenanceTable : RouteTable where
  routes := [.toTemplate ":entry_id" ⟨"blog", ""⟩]
  before := some (.change (.template ⟨"maintenance", "index"⟩) (.done ()))

/-- What a rule that declined has found out about its tokens stays, and the template that was set
before it is gone. -/
theorem declined_not_skipped :
    ¬∀ (table : RouteTable) (store : Store) (path : String) (passed later : List Route)
      (route : Route) (d : Dispatch) (m : Metrics), store.Total →
      table.routes = passed ++ route :: later →
      (table.dispatch store path).result = .ok (d, m) →
      m.trace[passed.length]?.map TraceEntry.verdict = some .declined →
      route.Idle store (Walk.reached store passed (table.prepare store path).context) →
      ∃ m', ({ table with routes := passed ++ later }.dispatch store path).result =
        .ok (d, m') := by
  intro h
  have htotal : entryStore.Total :=
    ⟨fun _ => ⟨_, rfl⟩, fun _ => ⟨_, rfl⟩, fun _ => ⟨_, rfl⟩, fun _ => ⟨_, rfl⟩⟩
  have hwith : ((maintenanceTable.dispatch entryStore "7").result.toOption.map fun r =>
      (r.2.trace.map TraceEntry.verdict, r.1.outcome, r.1.globals.get? "route_1_title")) =
        some ([.declined], .notRoutable, some "Hello") := by
    decide +kernel
  have hwithout : (RouteTable.dispatch { maintenanceTable with routes := [] } entryStore
      "7").result.toOption.map (fun r => r.1.globals.get? "route_1_title") = some none := by
    decide +kernel
  obtain ⟨⟨d, m⟩, hresult, heq⟩ := Option.map_eq_some_iff.1 hwith
  obtain ⟨htrace, hshown⟩ := Prod.mk.inj heq
  have hdeclined : m.trace[([] : List Route).length]?.map TraceEntry.verdict = some .declined := by
    rw [List.length_nil, ← List.getElem?_map, htrace]
    rfl
  obtain ⟨m', hskipped⟩ := h maintenanceTable entryStore "7" [] [] _ d m htotal rfl
    (ok_of_toOption hresult) hdeclined (fun _ _ hhandler => by cases hhandler)
  have hglobals : d.globals.get? "route_1_title" = some "Hello" := (Prod.mk.inj hshown).2
  change (RouteTable.dispatch { maintenanceTable with routes := [] } entryStore "7").result =
    .ok (d, m') at hskipped
  rw [hskipped] at hwithout
  have hblank : d.globals.get? "route_1_title" = none := Option.some.inj hwithout
  rw [hglobals] at hblank
  cases hblank

end RouteTable

end Signpost
