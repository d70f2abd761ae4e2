import Signpost.Store.Memory
import Signpost.Proofs.Dispatch.FirstMatch
import Signpost.Proofs.Token.Asking

/-!
# The questions of a dispatch

Where all rules lead to templates, the tokens of the rules whose expressions match put their
questions in order, up to the rule that is selected. A dispatch fails at the first question that the
store does not answer, and it is the last one. A dispatch that succeeds has put all questions.
-/

namespace Signpost

variable {store : Store} {ctx : Context} {route : Route} {t : Template}

/-! ## One rule -/

theorem Destination.reach_asks (hset : t.isSet = true) (store : Store) (p : Pattern)
    (captures : List (Option String)) (ctx : Context) :
    let tokens := Token.ofCaptures p captures
    let reached := reach store p tokens ctx (.template t)
    Asks store (tokens.filterMap Token.call?)
      { verdict := if tokens.all (Token.confirmed store) then .selected else .rejected } ctx
      reached.answer reached.context := by
  intro tokens reached
  rw [← List.append_nil (tokens.filterMap Token.call?)]
  refine Asks.andThen (a := tokens.all (Token.confirmed store)) ?_ fun _ mid => ?_
  · cases hneeds : p.needsStore with
    | true => exact Token.validate_asks ..
    | false =>
      rw [Token.filterMap_call? hneeds, Token.all_confirmed hneeds]
      exact .nothing ..
  · cases tokens.all (Token.confirmed store) with
    | true =>
      have hselected : Attempt.ofTemplate { mid with template := some t } =
          { verdict := .selected } := by
        simp [Attempt.ofTemplate, Context.hasTemplate, hset]
      exact ⟨congrArg _ hselected, rfl, (List.append_nil _).symm, rfl⟩
    | false => exact .nothing ..

namespace Route

/-- The questions of the tokens of a rule, if its expression matches. -/
def calls (path : String) (route : Route) : List Call :=
  match route.pattern.regex.captures? path with
  | some captures => (Token.ofCaptures route.pattern captures).filterMap Token.call?
  | none => []

/-- What becomes of a rule with a template if the store does not fail. -/
def verdict (store : Store) (path : String) (route : Route) : Verdict :=
  if route.qualifies store path then .selected else route.refusal path

theorem verdict_isFinal (store : Store) (path : String) (route : Route) :
    (route.verdict store path).isFinal = route.qualifies store path := by
  unfold verdict
  cases route.qualifies store path with
  | true => rfl
  | false => exact route.refusal_isFinal path

theorem attempt_asks (hdest : route.destination = .template t) (hset : t.isSet = true) :
    Asks store (route.calls ctx.path) { verdict := route.verdict store ctx.path } ctx
      (route.attempt store ctx).answer (route.attempt store ctx).context := by
  unfold attempt calls verdict qualifies refusal
  cases route.pattern.regex.captures? ctx.path with
  | none => exact .nothing ..
  | some captures =>
    simp only [hdest]
    exact Destination.reach_asks hset ..

end Route

/-! ## All rules -/

theorem Walk.along_asks (store : Store) {routes : List Route} {path : String} {ctx : Context}
    (hdest : ∀ route ∈ routes, ∃ t, route.destination = .template t ∧ t.isSet = true)
    (hpath : ctx.path = path) (metrics : Metrics) :
    let tried := upTo (Route.qualifies store path) routes
    let walk := along store routes ctx metrics
    ∃ decision, Asks store (tried.flatMap (Route.calls path)) decision ctx walk.decision walk.context ∧
      (store.firstFailure? (tried.flatMap (Route.calls path)) = none →
        walk.metrics.trace = metrics.trace ++ tried.map fun r => r.traced (r.verdict store path)) := by
  induction routes generalizing ctx metrics with
  | nil => exact ⟨none, .nothing .., fun _ => (List.append_nil _).symm⟩
  | cons route routes ih =>
    obtain ⟨t, ht, hset⟩ := hdest route List.mem_cons_self
    have hroute : Asks store (route.calls path) { verdict := route.verdict store path } ctx
        (route.attempt store ctx).answer (route.attempt store ctx).context :=
      hpath ▸ Route.attempt_asks ht hset
    simp only [upTo_cons, List.flatMap_cons, List.map_cons]
    rw [along]
    rcases hroute.failed_or_answered with ⟨e, hfailure, hanswer⟩ | ⟨hanswered, hanswer⟩
    · simp only [hanswer]
      refine ⟨none, hroute.append_failed hfailure _ _, fun hnone => ?_⟩
      rw [Store.firstFailure?_append, hfailure] at hnone
      cases hnone
    · simp only [hanswer, Route.verdict_isFinal]
      have hrecord : (metrics.record route (route.verdict store path)).trace =
          metrics.trace ++ [route.traced (route.verdict store path)] := rfl
      cases route.qualifies store path with
      | true => exact ⟨_, hroute.append hanswered (.nothing ..), fun _ => hrecord⟩
      | false =>
        obtain ⟨decision, hrest, htrace⟩ := @ih (route.attempt store ctx).context
          (fun r hr => hdest r (List.mem_cons_of_mem _ hr)) (hroute.context.path.trans hpath)
          (metrics.record route (route.verdict store path))
        refine ⟨decision, hroute.append hanswered hrest, fun hnone => ?_⟩
        rw [Store.firstFailure?_append, hanswered, Option.none_or] at hnone
        simpa [hrecord] using htrace hnone

/-! ## The whole dispatch -/

namespace RouteTable

variable {table : RouteTable} {path : String}

/-- The rules that have their turn: those up to the first one that qualifies. -/
def tried (table : RouteTable) (store : Store) (path : String) : List Route :=
  upTo (Route.qualifies store path) table.routes

/-- The questions of the rules that have their turn. -/
def questions (table : RouteTable) (store : Store) (path : String) : List Call :=
  (table.tried store path).flatMap (Route.calls path)

/-- A run that puts the questions of a table in order, and fails where the store does. -/
structure Questioned (table : RouteTable) (store : Store) (path : String) (run : DispatchRun) :
    Prop where
  /-- No question is left out, also not after one that the store had no rows for. -/
  calls_prefix : run.calls <+: table.questions store path
  /-- The store has answered every question but the last one. -/
  answered : ∀ call ∈ run.calls.dropLast, store.fails call = false
  /-- The run fails with the failure at its last question. -/
  error_iff : ∀ e, run.result = .error e ↔ ∃ call failure, run.calls.getLast? = some call ∧
    store.failure? call = some failure ∧ e = .store failure
  /-- The run fails where one of its questions does. -/
  fails_iff : (∃ e, run.result = .error e) ↔ ∃ call ∈ run.calls, store.fails call = true
  /-- No question that fails is missed. -/
  questions_fail_iff :
    (∃ e, run.result = .error e) ↔ ∃ call ∈ table.questions store path, store.fails call = true
  /-- A run that succeeds has put all questions and counted them, and has tried the rules up to the
  one that is selected. -/
  complete : ∀ d m, run.result = .ok (d, m) → run.calls = table.questions store path ∧
    m.lookups = (table.questions store path).length ∧
    m.trace = (table.tried store path).map fun r => r.traced (r.verdict store path)

/-- A dispatch puts the questions of its table up to the first failure, and has no other error. -/
theorem dispatch_heard (hbefore : table.before = none) (htable : table.AllTemplates) (store : Store)
    (path : String) :
    let sought := Text.dropTrailingSlashes path
    let run := table.dispatch store path
    run.calls = store.heard (table.questions store sought) ∧
      (∀ e, run.result = .error e ↔
        ∃ failure, store.firstFailure? (table.questions store sought) = some failure ∧
          e = .store failure) ∧
      ∀ d m, run.result = .ok (d, m) →
        store.firstFailure? (table.questions store sought) = none ∧
          m.lookups = (table.questions store sought).length ∧
          m.trace = (table.tried store sought).map fun r => r.traced (r.verdict store sought) := by
  intro sought run
  have hpath : (table.start path).path = sought := rfl
  obtain ⟨decision, hasks, htrace⟩ := Walk.along_asks store htable hpath {}
  have hprepare : table.prepare store path = ⟨.ok (), [], table.start path⟩ := by
    rw [prepare, hbefore]
  have hrun : run =
      let walk := Walk.along store table.routes (table.start path) {}
      ⟨walk.decision.map fun decision =>
          (table.finish decision walk.context, { walk.metrics with lookups := walk.context.lookups }),
        walk.context.calls, walk.context.journal⟩ := by
    simp only [run, dispatch, hprepare]
    rfl
  rw [hrun]
  refine ⟨hasks.context.calls, fun e => except_map_eq_error.trans hasks.error_iff,
    fun d m hok => ?_⟩
  obtain ⟨final, hfinal, heq⟩ := except_map_eq_ok.1 hok
  cases heq
  have hnone := (hasks.ok_iff.1 hfinal).1
  have hlookups := hasks.context.lookups
  rw [Store.countP_heard hnone] at hlookups
  exact ⟨hnone, hlookups.trans (Nat.zero_add _), htrace hnone⟩

/-- A dispatch puts the questions of its table in order, and fails where the store does. -/
theorem dispatch_questioned (hbefore : table.before = none) (htable : table.AllTemplates)
    (store : Store) (path : String) :
    table.Questioned store (Text.dropTrailingSlashes path) (table.dispatch store path) := by
  obtain ⟨hcalls, herror, hok⟩ := dispatch_heard hbefore htable store path
  have hfails : (∃ e, (table.dispatch store path).result = .error e) ↔
      ∃ failure, store.firstFailure?
        (table.questions store (Text.dropTrailingSlashes path)) = some failure := by
    simp only [herror]
    exact ⟨fun ⟨_, failure, h, _⟩ => ⟨failure, h⟩, fun ⟨failure, h⟩ => ⟨_, failure, h, rfl⟩⟩
  exact
    { calls_prefix := hcalls ▸ upTo_prefix
      answered := fun call hcall => Store.answered_of_mem_dropLast (hcalls ▸ hcall)
      error_iff := fun e => by
        rw [herror, hcalls]
        simp only [Store.firstFailure?_eq_some_iff]
        exact ⟨fun ⟨failure, ⟨call, hlast, hcall⟩, he⟩ => ⟨call, failure, hlast, hcall, he⟩,
          fun ⟨call, failure, hlast, hcall, he⟩ => ⟨failure, ⟨call, hlast, hcall⟩, he⟩⟩
      fails_iff := by
        rw [hfails, hcalls, ← Store.exists_firstFailure?, Store.firstFailure?_heard]
      questions_fail_iff := hfails.trans Store.exists_firstFailure?
      complete := fun d m hresult => by
        obtain ⟨hnone, hlookups, htrace⟩ := hok d m hresult
        exact ⟨hcalls.trans (Store.heard_eq_self hnone), hlookups, htrace⟩ }

/-! ### A store without its members -/

/-- A rule with two questions, before one that asks for a member. -/
def authorsTable : RouteTable where
  routes := [.toTemplate "blog/:url_title/:entry_id" ⟨"blog", "entry"⟩,
    .toTemplate "blog/:any/:member_id" ⟨"blog", "author"⟩]

/-- Has one entry, and fails where it is asked for a member. -/
def memberlessStore : Store :=
  { MemoryStore.toStore { entries := [.ofList [("entry_id", "7"), ("url_title", "hello")]] } with
    members := fun _ => .error (.unavailable "members") }

theorem allTemplates_authors : authorsTable.AllTemplates := by
  intro route hroute
  rcases List.mem_cons.1 hroute with rfl | hroute
  · exact ⟨_, rfl, rfl⟩
  · obtain rfl := List.mem_singleton.1 hroute
    exact ⟨_, rfl, rfl⟩

theorem dispatch_questioned_memberless :
    let run := authorsTable.dispatch memberlessStore "blog/other/7"
    (run.calls.map Call.question = [.entries, .entries, .members] ∧
        run.result = .error (.store (.unavailable "members"))) ∧
      ∃ d m, (authorsTable.dispatch memberlessStore "blog/hello/7").result = .ok (d, m) ∧
        m.lookups = 2 := by
  have hquestions : (authorsTable.dispatch memberlessStore "blog/other/7").calls.map Call.question =
      [.entries, .entries, .members] := by
    decide +kernel
  have hfailure : (authorsTable.dispatch memberlessStore "blog/other/7").calls.getLast?.bind
      memberlessStore.failure? = some (.unavailable "members") := by
    decide +kernel
  have hsucceeds : (authorsTable.dispatch memberlessStore
      "blog/hello/7").result.toOption.isSome = true := by
    decide +kernel
  have hcount : (authorsTable.questions memberlessStore
      (Text.dropTrailingSlashes "blog/hello/7")).length = 2 := by
    decide +kernel
  obtain ⟨call, hlast, hcall⟩ := Option.bind_eq_some_iff.1 hfailure
  obtain ⟨⟨d, m⟩, hresult⟩ := Option.isSome_iff_exists.1 hsucceeds
  have hfailing := dispatch_questioned rfl allTemplates_authors memberlessStore "blog/other/7"
  obtain ⟨-, hlookups, -⟩ := (dispatch_questioned rfl allTemplates_authors memberlessStore
    "blog/hello/7").complete d m (ok_of_toOption hresult)
  exact ⟨⟨hquestions, (hfailing.error_iff _).2 ⟨call, _, hlast, hcall, rfl⟩⟩, d, m,
    ok_of_toOption hresult, hlookups.trans hcount⟩

end RouteTable

end Signpost
