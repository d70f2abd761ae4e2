import Signpost.Store.Memory
import Signpost.Proofs.Dispatch.PagePaths

/-!
# Handlers that abstain

A handler abstains if it answers without a body and has no say in where the request goes. Its rule
then declines, and the next one has its turn, as long as no template is set before it, or the handler
puts a new context in place of the one that has it. A template can be set there by the handler of the
table only; the rule is then selected for it, although it did nothing.
-/

namespace Signpost

variable {store : Store} {ctx : Context} {route : Route} {h : Handler (Option String)}

/-! ## The turn of a handler -/

/-- A run that succeeds without a body, or with an empty one, and neither sets a template nor ends the
request. It may put a new context in place of the one it is given. -/
structure Handler.Abstains (store : Store) (h : Handler (Option String)) (tokens : List Token)
    (ctx : Context) : Prop where
  answer : ∃ body, (h.run store tokens ctx).answer = .ok body ∧ ∀ text, body = some text → text = ""
  changes : ∀ c ∈ h.changes store tokens ctx, c.template? = none ∧ c.ends = false

theorem Handler.Abstains.isEnded {tokens : List Token} (habstains : h.Abstains store tokens ctx)
    (hctx : ctx.isEnded = false) : (h.run store tokens ctx).context.isEnded = false := by
  rw [Handler.run_isEnded, hctx, Bool.and_false, Bool.false_or, List.any_eq_false]
  intro c hc
  rw [(habstains.changes c hc).2]
  exact Bool.false_ne_true

theorem Attempt.ofAnswer_of_blank {body : Option String} (hbody : ∀ text, body = some text → text = "")
    (hctx : ctx.isEnded = false) : ofAnswer body ctx = ofTemplate ctx := by
  rcases ofAnswer_cases body ctx with ⟨-, heq⟩ | ⟨-, hended | ⟨text, htext, hne⟩⟩
  · exact heq
  · rw [hctx] at hended
    cases hended
  · exact absurd (hbody text htext) hne

theorem Handler.Abstains.hasTemplate {tokens : List Token} (habstains : h.Abstains store tokens ctx) :
    (h.run store tokens ctx).context.hasTemplate =
      (!h.renews store tokens ctx && ctx.hasTemplate) := by
  have hkept := (h.run_afterChanges tokens ctx).template fun c hc => (habstains.changes c hc).1
  have hstart : (h.run store tokens ctx).context.hasTemplate =
      ((h.trail store tokens ctx).start ctx).hasTemplate :=
    congrArg (Option.any Template.isSet) hkept
  exact hstart.trans (Trail.flag_start (fun _ => rfl) _ ctx)

theorem Route.attempt_abstained {captures : List (Option String)}
    (hdest : route.destination = .handler h)
    (hcaptures : route.pattern.regex.captures? ctx.path = some captures)
    (habstains : h.Abstains store (Token.ofCaptures route.pattern captures) ctx)
    (hctx : ctx.isEnded = false) :
    (route.attempt store ctx).answer = .ok
      { verdict :=
          if !h.renews store (Token.ofCaptures route.pattern captures) ctx && ctx.hasTemplate then
            .selected
          else .declined } := by
  obtain ⟨body, hanswer, hbody⟩ := habstains.answer
  have hblank := Attempt.ofAnswer_of_blank hbody (habstains.isEnded hctx)
  rw [Attempt.ofTemplate, habstains.hasTemplate] at hblank
  unfold attempt
  simp only [hcaptures, hdest, Destination.reach, Progress.andThen, hanswer, hblank]

/-! ## The whole dispatch -/

namespace RouteTable

variable {table : RouteTable} {path : String}

/-- A rule whose handler abstains declines, and the walk goes on with the rules after it, if no
template is set as its turn comes, or a new context is put there. One that is set then is that of the
handler of the table, and the rule is selected for it if the context is kept. -/
theorem dispatch_abstained {tried : List (Route × Verdict)} {later : List Route}
    {captures : List (Option String)} (hbefore : (table.prepare store path).answer = .ok ())
    (hended : ended? (table.prepare store path).context = none)
    (hroutes : table.routes = tried.map Prod.fst ++ route :: later)
    (hpasses : Walk.Passes store tried (table.prepare store path).context ctx)
    (hdest : route.destination = .handler h)
    (hcaptures : route.pattern.regex.captures? ctx.path = some captures)
    (habstains : h.Abstains store (Token.ofCaptures route.pattern captures) ctx) :
    (ctx.hasTemplate = true → ctx.template = (table.prepare store path).context.template) ∧
      (ctx.hasTemplate = false ∨
          h.renews store (Token.ofCaptures route.pattern captures) ctx = true →
        Walk.along store table.routes (table.prepare store path).context {} =
            Walk.along store later (route.attempt store ctx).context
              ((Metrics.recordAll {} tried).record route .declined) ∧
          ∀ d m, (table.dispatch store path).result = .ok (d, m) →
            tried.map (fun r => r.1.traced r.2) ++ [route.traced .declined] <+: m.trace) ∧
      (ctx.hasTemplate = true →
        h.renews store (Token.ofCaptures route.pattern captures) ctx = false →
        ∃ d m, (table.dispatch store path).result = .ok (d, m) ∧
        m.trace = tried.map (fun r => r.1.traced r.2) ++ [route.traced .selected]) := by
  have hanswer := Route.attempt_abstained hdest hcaptures habstains
    (hpasses.isEnded (ended?_eq_none hended))
  have htrace : ∀ verdict, ((Metrics.recordAll {} tried).record route verdict).trace =
      tried.map (fun r => r.1.traced r.2) ++ [route.traced verdict] := by
    intro verdict
    simp [Metrics.record, Metrics.trace_recordAll, Route.traced]
  refine ⟨hpasses.template, fun hunset => ?_, fun hset hkept => ?_⟩
  · have hdeclined : (route.attempt store ctx).answer = .ok { verdict := .declined } := by
      rw [hanswer]
      rcases hunset with hunset | hrenews
      · simp [hunset]
      · simp [hrenews]
    have hwalk : Walk.along store table.routes (table.prepare store path).context {} =
        Walk.along store later (route.attempt store ctx).context
          ((Metrics.recordAll {} tried).record route .declined) := by
      rw [hroutes, Walk.along_passes hpasses, Walk.along, hdeclined]
      rfl
    refine ⟨hwalk, fun d m hresult => ?_⟩
    rw [trace_of_dispatch hbefore hended hresult, hwalk, ← htrace]
    exact Walk.prefix_trace_along ..
  · have hselected : (route.attempt store ctx).answer = .ok { verdict := .selected } := by
      rw [hanswer, hset, hkept]
      rfl
    exact ⟨_, _, dispatch_of_course hbefore (.decided hended hroutes hpasses hselected rfl),
      htrace .selected⟩

/-! ### A handler that only takes notes -/

/-- Writes down which path it was given. -/
def noteTaker : Handler (Option String) :=
  .look fun ctx _ => .change (.global "seen" ctx.path) (.note "seen" (.done (some "")))

theorem abstains_noteTaker (store : Store) (tokens : List Token) (ctx : Context) :
    noteTaker.Abstains store tokens ctx where
  answer := ⟨some "", rfl, fun _ h => (Option.some.inj h).symm⟩
  changes c hc := by
    obtain rfl := List.mem_singleton.1 hc
    exact ⟨rfl, rfl⟩

def notingRule : Route := { Route.toTemplate "blog/:any" default with destination := .handler noteTaker }

/-- The handler of the table sets a template, and the first rule takes it away. -/
def notingTable : RouteTable where
  routes := [.toTemplate "blog/:any" ⟨"blog", ""⟩, notingRule,
    .toTemplate "blog/:any" ⟨"blog", "entry"⟩]
  before := some (.change (.template ⟨"maintenance", "index"⟩) (.done ()))

theorem dispatch_abstained_noting :
    ∃ d m, (notingTable.dispatch (MemoryStore.toStore {}) "blog/hello").result = .ok (d, m) ∧
      [.declined, .declined] <+: m.trace.map TraceEntry.verdict := by
  let store := MemoryStore.toStore {}
  let first : Route := .toTemplate "blog/:any" ⟨"blog", ""⟩
  let start := (notingTable.prepare store "blog/hello").context
  have hfirst : (first.attempt store start).answer.toOption = some { verdict := .declined } := by
    decide +kernel
  have hpasses : Walk.Passes store [(first, .declined)] start (first.attempt store start).context :=
    .cons (ok_of_toOption hfirst) rfl (.nil _)
  have hunset : (first.attempt store start).context.hasTemplate = false := by decide +kernel
  have hmatches : (notingRule.pattern.regex.captures?
      (first.attempt store start).context.path).isSome = true := by
    decide +kernel
  have hsucceeds : (notingTable.dispatch store "blog/hello").result.toOption.isSome = true := by
    decide +kernel
  obtain ⟨captures, hcaptures⟩ := Option.isSome_iff_exists.1 hmatches
  obtain ⟨⟨d, m⟩, hresult⟩ := Option.isSome_iff_exists.1 hsucceeds
  obtain ⟨-, hdeclined, -⟩ := dispatch_abstained rfl rfl rfl hpasses rfl hcaptures
    (abstains_noteTaker ..)
  have htrace := (hdeclined (.inl hunset)).2 d m (ok_of_toOption hresult)
  exact ⟨d, m, ok_of_toOption hresult, htrace.map TraceEntry.verdict⟩

/-- A template that the handler of the table has set, before a rule whose handler abstains. -/
def closedTable : RouteTable where
  routes := [notingRule, .toTemplate "blog/:any" ⟨"blog", "entry"⟩]
  before := some (.change (.template ⟨"maintenance", "index"⟩) (.done ()))

/-- Where a template is set beforehand, the rule is selected that did nothing, and the next one does
not have its turn. -/
theorem abstained_selected :
    ¬∀ (table : RouteTable) (store : Store) (path : String) (tried : List (Route × Verdict))
      (route : Route) (later : List Route) (ctx : Context) (h : Handler (Option String))
      (captures : List (Option String)),
      (table.prepare store path).answer = .ok () →
      ended? (table.prepare store path).context = none →
      table.routes = tried.map Prod.fst ++ route :: later →
      Walk.Passes store tried (table.prepare store path).context ctx →
      route.destination = .handler h →
      route.pattern.regex.captures? ctx.path = some captures →
      h.Abstains store (Token.ofCaptures route.pattern captures) ctx →
      ∀ d m, (table.dispatch store path).result = .ok (d, m) →
        tried.map (fun r => r.1.traced r.2) ++ [route.traced .declined] <+: m.trace := by
  intro h
  let store := MemoryStore.toStore {}
  let start := (closedTable.prepare store "blog/hello").context
  have hmatches : (notingRule.pattern.regex.captures? start.path).isSome = true := by
    decide +kernel
  have hverdicts : ((closedTable.dispatch store "blog/hello").result.toOption.map
      fun r => r.2.trace.map TraceEntry.verdict) = some [.selected] := by
    decide +kernel
  obtain ⟨captures, hcaptures⟩ := Option.isSome_iff_exists.1 hmatches
  obtain ⟨⟨d, m⟩, hresult, htrace⟩ := Option.map_eq_some_iff.1 hverdicts
  have hdeclined := (h closedTable store "blog/hello" [] notingRule _ start noteTaker captures rfl rfl
    rfl (.nil _) rfl hcaptures (abstains_noteTaker ..) d m (ok_of_toOption hresult)).map
      TraceEntry.verdict
  rw [htrace] at hdeclined
  exact absurd hdeclined (by decide)

end RouteTable

end Signpost
