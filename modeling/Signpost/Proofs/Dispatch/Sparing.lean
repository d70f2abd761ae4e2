import Signpost.Proofs.Dispatch.Walk
import Signpost.Proofs.Token.Checking
import Signpost.Store.Memory

/-!
# Checks that are spared

The tokens of a rule are checked only if the store has a say in one of its kinds. For any other rule
a check has nothing to ask, whichever groups the kinds belong to, so a dispatch that checks every
rule is the same dispatch, down to the questions and the counters.
-/

namespace Signpost

variable {store : Store} {ctx : Context}

/-! ## Tokens that look nothing up -/

namespace Token

variable {ts : List Token}

theorem checkAll_unasked (h : ∀ t ∈ ts, t.kind.bind Kind.lookup? = none) :
    checkAll store ts ctx = ⟨.ok true, ts, ctx⟩ := by
  induction ts with
  | nil => rfl
  | cons t ts ih =>
    obtain ⟨ht, hts⟩ := List.forall_mem_cons.1 h
    have hcheck : t.check store .own .empty ctx = ⟨.ok true, t, ctx⟩ := by rw [check_own, ht]
    simp [checkAll, hcheck, ih hts, Except.map]

theorem validate_unasked (h : ∀ t ∈ ts, t.kind.bind Kind.lookup? = none) :
    validate store ts ctx = ⟨.ok true, ts, ctx⟩ := by
  unfold validate
  rw [checkAll_unasked h]

theorem validate_ofCaptures {p : Pattern} (h : p.needsStore = false)
    (captures : List (Option String)) :
    validate store (ofCaptures p captures) ctx = ⟨.ok true, ofCaptures p captures, ctx⟩ := by
  -- The kinds of the rule say enough, also where its groups are numbered another way.
  apply validate_unasked
  intro t ht
  exact lookup?_of_needsStore h ht

end Token

/-! ## Dispatching with more checks -/

section Checking

variable (checks : Pattern → Bool) (store : Store)

/-- Where a rule leads if its tokens are checked as `checks` has it. -/
def Destination.reachChecking (pattern : Pattern) (tokens : List Token) (ctx : Context) :
    Destination → Progress Attempt
  | template t =>
    let checked :=
      if checks pattern then Token.validate store tokens ctx else ⟨.ok true, tokens, ctx⟩
    checked.andThen fun valid tokens ctx =>
      if valid then
        let ctx := { ctx with template := some t }
        ⟨.ok (.ofTemplate ctx), tokens, ctx⟩
      else ⟨.ok { verdict := .rejected }, tokens, ctx⟩
  | handler h =>
    (h.run store tokens ctx).andThen fun body tokens ctx => ⟨.ok (.ofAnswer body ctx), tokens, ctx⟩

def Route.attemptChecking (route : Route) (ctx : Context) : Progress Attempt :=
  match route.pattern.regex.captures? ctx.path with
  | some captures =>
    route.destination.reachChecking checks store route.pattern
      (Token.ofCaptures route.pattern captures) ctx
  | none => ⟨.ok { verdict := .noMatch }, [], ctx⟩

def Walk.alongChecking : List Route → Context → Metrics → Walk
  | [], ctx, metrics => ⟨.ok none, ctx, metrics⟩
  | route :: routes, ctx, metrics =>
    let ran := route.attemptChecking checks store ctx
    match ran.answer with
    | .error e => ⟨.error e, ran.context, metrics⟩
    | .ok attempt =>
      let metrics := metrics.record route attempt.verdict
      if attempt.verdict.isFinal then
        ⟨.ok (some ⟨route, attempt, ran.tokens⟩), ran.context, metrics⟩
      else alongChecking routes ran.context metrics

/-- The dispatch that checks the tokens of a matching rule with a template if `checks` says so. -/
def RouteTable.dispatchChecking (table : RouteTable) (path : String) : DispatchRun :=
  let prepared := table.prepare store path
  match prepared.answer with
  | .error e => ⟨.error e, prepared.context.calls, prepared.context.journal⟩
  | .ok () =>
    match ended? prepared.context with
    | some d =>
      ⟨.ok (d, { lookups := prepared.context.lookups }), prepared.context.calls,
        prepared.context.journal⟩
    | none =>
      let walk := Walk.alongChecking checks store table.routes prepared.context {}
      ⟨walk.decision.map fun decision =>
          (table.finish decision walk.context,
            { walk.metrics with lookups := walk.context.lookups }),
        walk.context.calls, walk.context.journal⟩

end Checking

/-! ## Nothing but needed checks counts -/

variable {checks : Pattern → Bool}

theorem Destination.reachChecking_eq {p : Pattern} (h : p.needsStore = true → checks p = true)
    (destination : Destination) (captures : List (Option String)) :
    destination.reachChecking checks store p (Token.ofCaptures p captures) ctx =
      destination.reach store p (Token.ofCaptures p captures) ctx := by
  cases destination with
  | handler => rfl
  | template t =>
    unfold reachChecking reach
    cases hneeds : p.needsStore with
    | true => rw [h hneeds]
    | false =>
      -- Whether the tokens are checked or not, they and the context stay as they are.
      have hspared : Token.validate store (Token.ofCaptures p captures) ctx = _ :=
        Token.validate_ofCaptures hneeds captures
      cases checks p <;> simp [hspared]

theorem Route.attemptChecking_eq {route : Route}
    (h : route.pattern.needsStore = true → checks route.pattern = true) :
    route.attemptChecking checks store ctx = route.attempt store ctx := by
  unfold attemptChecking attempt
  cases route.pattern.regex.captures? ctx.path with
  | none => rfl
  | some captures => exact Destination.reachChecking_eq h route.destination captures

theorem Walk.alongChecking_eq {routes : List Route} {metrics : Metrics}
    (h : ∀ route ∈ routes, route.pattern.needsStore = true → checks route.pattern = true) :
    alongChecking checks store routes ctx metrics = along store routes ctx metrics := by
  induction routes generalizing ctx metrics with
  | nil => rfl
  | cons route routes ih =>
    obtain ⟨hroute, hroutes⟩ := List.forall_mem_cons.1 h
    unfold alongChecking along
    rw [Route.attemptChecking_eq hroute]
    obtain ⟨_ | attempt, tokens, context⟩ := route.attempt store ctx
    · rfl
    · simp only [ih hroutes]

namespace RouteTable

theorem dispatchChecking_eq {table : RouteTable}
    (h : ∀ route ∈ table.routes, route.pattern.needsStore = true → checks route.pattern = true)
    (path : String) : table.dispatchChecking checks store path = table.dispatch store path := by
  unfold dispatchChecking dispatch
  obtain ⟨_ | _, tokens, context⟩ := table.prepare store path
  · rfl
  · cases hended : ended? context with
    | some => simp only [hended]
    | none => simp only [hended, Walk.alongChecking_eq h]

/-- A dispatch checks the rules that need the store, and to check all rules makes no difference. -/
theorem dispatch_checksEvery (table : RouteTable) (store : Store) (path : String) :
    table.dispatchChecking Pattern.needsStore store path = table.dispatch store path ∧
      table.dispatchChecking (fun _ => true) store path = table.dispatch store path := by
  constructor
  · exact dispatchChecking_eq (fun _ _ hneeds => hneeds) path
  · exact dispatchChecking_eq (fun _ _ _ => rfl) path

-- A needed check cannot be spared: the store is not asked then, and the rule is selected.
example :
    let table : RouteTable := { routes := [.toTemplate "blog/:entry_id" ⟨"blog", "entry"⟩] }
    let needed := table.dispatch (MemoryStore.toStore {}) "blog/7"
    let spared := table.dispatchChecking (fun _ => false) (MemoryStore.toStore {}) "blog/7"
    needed.calls.length = 1 ∧ spared.calls = [] ∧
      needed.result.toOption.map (·.1.outcome) = some .notRoutable ∧
      spared.result.toOption.map (·.1.outcome) = some (.template ⟨"blog", "entry"⟩) := by
  decide +kernel

end RouteTable

end Signpost
