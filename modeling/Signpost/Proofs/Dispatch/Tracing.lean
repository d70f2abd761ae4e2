import Signpost.Store.Memory
import Signpost.Proofs.Dispatch.PagePaths

/-!
# What a trace tells

The trace of a dispatch names the rules that were tried, in their order, and its last entry says how
the request was decided. That it tells the truth rests on one invariant: no rule is tried once a
handler has ended the request, so a handler that is noted down as having ended it did so itself.
-/

namespace Signpost

variable {store : Store} {ctx ctx' : Context} {route : Route} {attempt : Attempt}
  {tokens : List Token}

theorem Verdict.passed {v : Verdict} (h : v.isFinal = false) :
    v = .noMatch ∨ v = .rejected ∨ v = .declined := by
  cases v <;> simp_all [isFinal]

theorem Walk.Passes.verdicts {tried : List (Route × Verdict)} (h : Passes store tried ctx ctx') :
    ∀ e ∈ tried.map fun r => r.1.traced r.2, e.verdict.isFinal = false := by
  intro e he
  obtain ⟨r, hr, rfl⟩ := List.mem_map.1 he
  exact h.isFinal r hr

/-! ## Counters -/

namespace Metrics

/-- The counters agree with the trace. -/
structure Counts (m : Metrics) : Prop where
  considered : m.considered = m.trace.length
  matched : m.matched = m.trace.countP fun e => e.verdict ≠ .noMatch
  rejected : m.rejected = m.trace.countP fun e => e.verdict = .rejected

variable {m : Metrics}

theorem Counts.record (h : m.Counts) (route : Route) (verdict : Verdict) :
    (m.record route verdict).Counts where
  considered := by simp [Metrics.record, h.considered]
  matched := by cases verdict <;> simp [Metrics.record, h.matched]
  rejected := by cases verdict <;> simp [Metrics.record, h.rejected]

theorem Counts.recordAll (h : m.Counts) (tried : List (Route × Verdict)) :
    (m.recordAll tried).Counts := by
  induction tried generalizing m with
  | nil => exact h
  | cons r tried ih => exact ih (h.record r.1 r.2)

theorem counts_recordAll (tried : List (Route × Verdict)) : (recordAll {} tried).Counts :=
  Counts.recordAll ⟨rfl, rfl, rfl⟩ tried

/-- The verdict on the rule that was tried last. -/
def last? (m : Metrics) : Option Verdict := m.trace.getLast?.map TraceEntry.verdict

theorem last?_ne_of_isFinal (h : ∀ e ∈ m.trace, e.verdict.isFinal = false) {v : Verdict}
    (hv : v.isFinal = true) : m.last? ≠ some v := by
  intro hlast
  obtain ⟨e, he, rfl⟩ := Option.map_eq_some_iff.1 hlast
  rw [h e (List.mem_of_getLast? he)] at hv
  cases hv

end Metrics

/-! ## Handlers that end a request -/

namespace Handler

/-- A run redirects, or answers with a body that is not empty. -/
def Emits (store : Store) (h : Handler (Option String)) (tokens : List Token) (ctx : Context) :
    Prop :=
  (h.changes store tokens ctx).any Change.redirects = true ∨
    ∃ text, (h.run store tokens ctx).answer = .ok (some text) ∧ text ≠ ""

/-- A run asks for the page of a 404. -/
def Refuses (store : Store) (h : Handler (Option String)) (tokens : List Token) (ctx : Context) :
    Prop :=
  (h.changes store tokens ctx).any Change.refuses = true

end Handler

namespace Attempt

theorem notFound_of_ofAnswer {body : Option String}
    (h : (ofAnswer body ctx).verdict = .notFound) : ctx.notFound = true := by
  unfold ofAnswer at h
  split at h
  · next hnotFound => exact hnotFound
  · split at h
    · cases h
    · split at h
      · cases h
      · exact absurd (.inr h) (not_answered_ofTemplate ctx)

theorem emitted_of_ofAnswer {body : Option String} (h : (ofAnswer body ctx).verdict = .emitted) :
    ctx.isRedirecting = true ∨ ∃ text, body = some text ∧ text ≠ "" := by
  unfold ofAnswer at h
  split at h
  · cases h
  · split at h
    · next text hbody =>
      obtain ⟨hsome, htext⟩ := Option.filter_eq_some_iff.1 hbody
      exact .inr ⟨text, hsome, by simpa using htext⟩
    · split at h
      · next hredirect => exact .inl hredirect
      · exact absurd (.inl h) (not_answered_ofTemplate ctx)

end Attempt

namespace Route

theorem Tried.emits (h : Tried store route ctx attempt tokens ctx') (hctx : ctx.isEnded = false)
    (hverdict : attempt.verdict = .emitted) :
    ∃ hd captures, route.destination = .handler hd ∧
      route.pattern.regex.captures? ctx.path = some captures ∧
      hd.Emits store (Token.ofCaptures route.pattern captures) ctx := by
  obtain ⟨hd, captures, body, hdest, hcaptures, hanswer, rfl⟩ := h.of_answered (.inl hverdict)
  refine ⟨hd, captures, hdest, hcaptures, ?_⟩
  obtain ⟨-, hredirect⟩ := Bool.or_eq_false_iff.1 hctx
  rcases Attempt.emitted_of_ofAnswer hverdict with hends | ⟨text, rfl, htext⟩
  · rw [Handler.run_isRedirecting, hredirect, Bool.and_false, Bool.false_or] at hends
    exact .inl hends
  · exact .inr ⟨text, hanswer, htext⟩

theorem Tried.refuses (h : Tried store route ctx attempt tokens ctx') (hctx : ctx.isEnded = false)
    (hverdict : attempt.verdict = .notFound) :
    ∃ hd captures, route.destination = .handler hd ∧
      route.pattern.regex.captures? ctx.path = some captures ∧
      hd.Refuses store (Token.ofCaptures route.pattern captures) ctx := by
  obtain ⟨hd, captures, body, hdest, hcaptures, -, rfl⟩ := h.of_answered (.inr hverdict)
  refine ⟨hd, captures, hdest, hcaptures, ?_⟩
  obtain ⟨hnotFound, -⟩ := Bool.or_eq_false_iff.1 hctx
  have hends := Attempt.notFound_of_ofAnswer hverdict
  rw [Handler.run_notFound, hnotFound, Bool.and_false, Bool.false_or] at hends
  exact hends

end Route

/-! ## Outcomes -/

namespace Context

theorem outcome_cases (ctx : Context) :
    ctx.outcome = .notRoutable ∨ ∃ t, ctx.outcome = .template t := by
  unfold outcome
  split
  · split
    · exact .inr ⟨_, rfl⟩
    · exact .inl rfl
  · exact .inl rfl

theorem hasTemplate_of_outcome {t : Template} (h : ctx.outcome = .template t) :
    ctx.hasTemplate = true := by
  unfold outcome at h
  split at h
  · split at h
    · next hroutable => exact (Bool.and_eq_true_iff.1 hroutable).1
    · cases h
  · cases h

theorem hasTemplate_of_outcome_fill {t : Template} (h : (ctx.fill tokens).outcome = .template t) :
    ctx.hasTemplate = true := by
  cases hset : ctx.hasTemplate with
  | true => rfl
  | false =>
    rw [fill, if_neg (by simp [hset])] at h
    exact hset.symm.trans (hasTemplate_of_outcome h)

end Context

namespace RouteTable

variable {table : RouteTable} {path : String} {d : Dispatch} {m : Metrics}

/-- The handler of the table makes a change of a kind to the context that it leaves. -/
def ChangesBefore (table : RouteTable) (store : Store) (path : String) (kind : Change → Bool) : Prop :=
  ∃ h, table.before = some h ∧ (h.changes store [] (table.start path)).any kind = true

theorem flag_prepare_iff {flag : Context → Bool} {raises : Change → Bool}
    (hstart : flag (table.start path) = false)
    (hrun : ∀ (h : Handler Unit) (tokens : List Token) (ctx : Context),
      flag (h.run store tokens ctx).context =
        ((!h.renews store tokens ctx && flag ctx) || (h.changes store tokens ctx).any raises)) :
    flag (table.prepare store path).context = true ↔ table.ChangesBefore store path raises := by
  unfold prepare ChangesBefore
  cases table.before with
  | none => simp [hstart]
  | some h => simp [hrun, hstart]

theorem notFound_prepare_iff : (table.prepare store path).context.notFound = true ↔
    table.ChangesBefore store path Change.refuses :=
  flag_prepare_iff rfl Handler.run_notFound

theorem isRedirecting_prepare_iff : (table.prepare store path).context.isRedirecting = true ↔
    table.ChangesBefore store path Change.redirects :=
  flag_prepare_iff rfl Handler.run_isRedirecting

theorem outcome_of_ended (h : ended? ctx = some d) :
    ((∃ r, d.outcome = .emit r) ↔ ctx.isRedirecting = true ∧ ¬ctx.notFound = true) ∧
      (d.outcome = .notFound ↔ ctx.notFound = true) := by
  unfold ended? at h
  split at h
  · next hnotFound =>
    cases h
    simp [Dispatch.ofContext, hnotFound]
  · next hnotFound =>
    split at h
    · next hredirect =>
      cases h
      simp [Dispatch.ofContext, hnotFound, hredirect]
    · cases h

/-! ## The account of a dispatch -/

/-- The rule that was tried last has a handler, of whose run something holds. -/
def LastHandler (table : RouteTable) (store : Store) (path : String) (m : Metrics)
    (P : Handler (Option String) → List Token → Context → Prop) : Prop :=
  ∃ passed route later h captures, table.routes = passed ++ route :: later ∧
    m.trace.length = passed.length + 1 ∧ route.destination = .handler h ∧
    let before := Walk.reached store passed (table.prepare store path).context
    route.pattern.regex.captures? before.path = some captures ∧
      P h (Token.ofCaptures route.pattern captures) before

/-- What the metrics of a dispatch say of it. -/
structure Account (table : RouteTable) (store : Store) (path : String) (d : Dispatch) (m : Metrics) :
    Prop where
  counts : m.Counts
  /-- The entries name the first rules of the table in their order. -/
  rules : m.trace.map (fun e => (e.rule, e.regex)) <+:
    table.routes.map fun r => (r.rule, r.pattern.regex.text)
  /-- All rules but the last one were passed over. -/
  passed : ∀ e ∈ m.trace.dropLast,
    e.verdict = .noMatch ∨ e.verdict = .rejected ∨ e.verdict = .declined
  /-- Where no rule decided every rule was tried. -/
  allTried : ¬table.EndedBefore store path → (∀ e ∈ m.trace, e.verdict.isFinal = false) →
    m.trace.length = table.routes.length
  emit_iff : (∃ r, d.outcome = .emit r) ↔ m.last? = some .emitted ∨
    (table.ChangesBefore store path Change.redirects ∧
      ¬table.ChangesBefore store path Change.refuses ∧ m.trace = [])
  emitted : m.last? = some .emitted → table.LastHandler store path m (Handler.Emits store)
  notFound_iff : d.outcome = .notFound ↔ m.last? = some .notFound ∨
    (table.ChangesBefore store path Change.refuses ∧ m.trace = [])
  notFound : m.last? = some .notFound → table.LastHandler store path m (Handler.Refuses store)
  template : (∃ t, d.outcome = .template t) → m.last? = some .selected ∨
    ((∀ e ∈ m.trace, e.verdict.isFinal = false) ∧
      (table.prepare store path).context.hasTemplate = true)

theorem Account.of_ended (hended : ended? (table.prepare store path).context = some d) (n : Nat) :
    table.Account store path d { lookups := n } := by
  obtain ⟨hemit, hnotFound⟩ := outcome_of_ended hended
  obtain ⟨hisEnded, -, htemplate⟩ := ended?_eq_some hended
  exact
    { counts := ⟨rfl, rfl, rfl⟩
      rules := List.nil_prefix
      passed := by simp
      allTried := fun hbefore => absurd (endedBefore_of_isEnded hisEnded) hbefore
      emit_iff := by
        rw [hemit, isRedirecting_prepare_iff, notFound_prepare_iff]
        simp [Metrics.last?]
      emitted := nofun
      notFound_iff := by
        rw [hnotFound, notFound_prepare_iff]
        simp [Metrics.last?]
      notFound := nofun
      template := fun ⟨t, ht⟩ => absurd ht (htemplate t) }

theorem not_changesBefore_of_isEnded (hctx : (table.prepare store path).context.isEnded = false) :
    ¬table.ChangesBefore store path Change.redirects ∧
      ¬table.ChangesBefore store path Change.refuses := by
  obtain ⟨hnotFound, hredirect⟩ := Bool.or_eq_false_iff.1 hctx
  rw [← isRedirecting_prepare_iff, ← notFound_prepare_iff, hnotFound, hredirect]
  exact ⟨Bool.false_ne_true, Bool.false_ne_true⟩

theorem Account.of_undecided {tried : List (Route × Verdict)}
    (hended : ended? (table.prepare store path).context = none)
    (hroutes : table.routes = tried.map Prod.fst)
    (hpasses : Walk.Passes store tried (table.prepare store path).context ctx) (hcounts : m.Counts)
    (htrace : m.trace = tried.map fun r => r.1.traced r.2)
    (houtcome : d.outcome = (ctx.fill []).outcome) : table.Account store path d m := by
  obtain ⟨hredirects, hrefuses⟩ := not_changesBefore_of_isEnded (ended?_eq_none hended)
  have hfinal : ∀ e ∈ m.trace, e.verdict.isFinal = false := htrace ▸ hpasses.verdicts
  have hemitted : m.last? ≠ some .emitted := Metrics.last?_ne_of_isFinal hfinal rfl
  have hnotFound : m.last? ≠ some .notFound := Metrics.last?_ne_of_isFinal hfinal rfl
  have hnone := (ctx.fill []).outcome_cases
  rw [← houtcome] at hnone
  exact
    { counts := hcounts
      rules := by
        rw [htrace, hroutes, List.map_map, List.map_map]
        exact List.prefix_rfl
      passed := fun e he => Verdict.passed (hfinal e (List.dropLast_subset _ he))
      allTried := fun _ _ => by rw [htrace, hroutes, List.length_map, List.length_map]
      emit_iff := by
        rcases hnone with h | ⟨t, h⟩ <;> simp [h, hemitted, hredirects]
      emitted := fun h => absurd h hemitted
      notFound_iff := by
        rcases hnone with h | ⟨t, h⟩ <;> simp [h, hnotFound, hrefuses]
      notFound := fun h => absurd h hnotFound
      template := fun ⟨t, ht⟩ => by
        have hset := Context.hasTemplate_of_outcome_fill (houtcome ▸ ht)
        refine .inr ⟨hfinal, ?_⟩
        rw [Context.hasTemplate, ← hpasses.template hset]
        exact hset }

theorem outcome_finish_cases (table : RouteTable) (route : Route) (tokens : List Token) (ctx : Context)
    (hfinal : attempt.verdict.isFinal = true) :
    let o := (table.finish (some ⟨route, attempt, tokens⟩) ctx).outcome
    (attempt.verdict = .emitted ∧ ∃ r, o = .emit r) ∨ (attempt.verdict = .notFound ∧ o = .notFound) ∨
      (attempt.verdict = .selected ∧ (o = .notRoutable ∨ ∃ t, o = .template t)) := by
  cases hverdict : attempt.verdict with
  | noMatch | rejected | declined => simp [hverdict, Verdict.isFinal] at hfinal
  | emitted =>
    rw [finish_emitted table route tokens ctx hverdict]
    exact .inl ⟨rfl, _, rfl⟩
  | notFound =>
    rw [finish_notFound table route tokens ctx hverdict]
    exact .inr (.inl ⟨rfl, rfl⟩)
  | selected =>
    rw [finish_selected table route tokens ctx hverdict]
    exact .inr (.inr ⟨rfl, (ctx.fill tokens).outcome_cases⟩)

theorem outcome_finish_iff (table : RouteTable) (route : Route) (tokens : List Token) (ctx : Context)
    (hfinal : attempt.verdict.isFinal = true) :
    let o := (table.finish (some ⟨route, attempt, tokens⟩) ctx).outcome
    ((∃ r, o = .emit r) ↔ attempt.verdict = .emitted) ∧
      (o = .notFound ↔ attempt.verdict = .notFound) ∧
      ((∃ t, o = .template t) → attempt.verdict = .selected) := by
  rcases table.outcome_finish_cases route tokens ctx hfinal with
    ⟨hv, r, ho⟩ | ⟨hv, ho⟩ | ⟨hv, ho | ⟨t, ho⟩⟩ <;> simp [hv, ho]

theorem Account.of_decided {tried : List (Route × Verdict)} {later : List Route}
    (hended : ended? (table.prepare store path).context = none)
    (hroutes : table.routes = tried.map Prod.fst ++ route :: later)
    (hpasses : Walk.Passes store tried (table.prepare store path).context ctx)
    (hanswer : (route.attempt store ctx).answer = .ok attempt)
    (hfinal : attempt.verdict.isFinal = true) (hcounts : m.Counts)
    (htrace : m.trace = tried.map (fun r => r.1.traced r.2) ++ [route.traced attempt.verdict])
    (houtcome : d.outcome = (table.finish (some ⟨route, attempt, (route.attempt store ctx).tokens⟩)
      (route.attempt store ctx).context).outcome) : table.Account store path d m := by
  have htried := Route.tried_of_attempt hanswer
  have hctx := hpasses.isEnded (ended?_eq_none hended)
  have hlast : m.last? = some attempt.verdict := by
    rw [Metrics.last?, htrace, List.getLast?_concat]
    rfl
  have hne : m.trace ≠ [] := by simp [htrace]
  obtain ⟨hemit, hnotFound, htemplate⟩ := outcome_finish_iff table route
    (route.attempt store ctx).tokens (route.attempt store ctx).context hfinal
  rw [← houtcome] at hemit hnotFound htemplate
  have hown : ∀ {P : Handler (Option String) → List Token → Context → Prop},
      (∃ hd captures, route.destination = .handler hd ∧
        route.pattern.regex.captures? ctx.path = some captures ∧
          P hd (Token.ofCaptures route.pattern captures) ctx) → table.LastHandler store path m P := by
    rintro P ⟨hd, captures, hdest, hcaptures, hP⟩
    refine ⟨tried.map Prod.fst, route, later, hd, captures, hroutes, by simp [htrace], hdest, ?_⟩
    rw [hpasses.reached_eq]
    exact ⟨hcaptures, hP⟩
  exact
    { counts := hcounts
      rules := by
        refine ⟨later.map fun r => (r.rule, r.pattern.regex.text), ?_⟩
        simp [htrace, hroutes, Route.traced]
      passed := fun e he => by
        rw [htrace, List.dropLast_concat] at he
        exact Verdict.passed (hpasses.verdicts e he)
      allTried := fun _ hnone => by
        have hdecided := hnone (route.traced attempt.verdict) (by simp [htrace])
        rw [show (route.traced attempt.verdict).verdict = attempt.verdict from rfl, hfinal] at hdecided
        cases hdecided
      emit_iff := by
        rw [hlast, hemit]
        simp [hne]
      emitted := fun h => hown (htried.emits hctx (Option.some.inj (hlast.symm.trans h)))
      notFound_iff := by
        rw [hlast, hnotFound]
        simp [hne]
      notFound := fun h => hown (htried.refuses hctx (Option.some.inj (hlast.symm.trans h)))
      template := fun h => .inl (htemplate h ▸ hlast) }

/-- The metrics of a dispatch that succeeds tell the truth about it. -/
theorem dispatch_account (h : (table.dispatch store path).result = .ok (d, m)) :
    table.Account store path d m := by
  obtain ⟨-, hcourse⟩ := course_of_dispatch h
  cases hcourse with
  | ended hended => exact .of_ended hended _
  | @undecided tried ctx hended hroutes hpasses =>
    have hcounts := Metrics.counts_recordAll tried
    exact .of_undecided hended hroutes hpasses
      ⟨hcounts.considered, hcounts.matched, hcounts.rejected⟩ (by simp [Metrics.trace_recordAll]) rfl
  | @decided tried route later ctx attempt hended hroutes hpasses hanswer hfinal =>
    have hcounts := (Metrics.counts_recordAll tried).record route attempt.verdict
    exact .of_decided hended hroutes hpasses hanswer hfinal
      ⟨hcounts.considered, hcounts.matched, hcounts.rejected⟩
      (by simp [Metrics.trace_recordAll, Metrics.record, Route.traced]) rfl

/-! ### A handler that answers -/

/-- A rule for another path, before one whose handler greets. -/
def greetingTable : RouteTable where
  routes := [.toTemplate "about" ⟨"site", "about"⟩,
    { Route.toTemplate "hello/:any" default with
      destination := .handler (.look fun _ tokens => .done (tokens.head?.map Token.text)) }]
  before := some (.change (.template ⟨"maintenance", "index"⟩) (.done ()))

theorem dispatch_account_greeting :
    ∃ d m, (greetingTable.dispatch (MemoryStore.toStore {}) "hello/you").result = .ok (d, m) ∧
      m.trace.map TraceEntry.verdict = [.noMatch, .emitted] ∧ m.considered = 2 ∧
      ∃ r, d.outcome = .emit r := by
  have hverdicts : ((greetingTable.dispatch (MemoryStore.toStore {}) "hello/you").result.toOption.map
      fun r => r.2.trace.map TraceEntry.verdict) = some [.noMatch, .emitted] := by
    decide +kernel
  obtain ⟨⟨d, m⟩, hresult, htrace⟩ := Option.map_eq_some_iff.1 hverdicts
  have haccount := dispatch_account (ok_of_toOption hresult)
  have hlast : m.last? = some .emitted := by rw [Metrics.last?, ← List.getLast?_map, htrace]; rfl
  refine ⟨d, m, ok_of_toOption hresult, htrace, ?_, haccount.emit_iff.2 (.inl hlast)⟩
  rw [haccount.counts.considered, ← List.length_map TraceEntry.verdict, htrace]
  rfl

end RouteTable

end Signpost
