import Signpost.Store.Memory
import Signpost.Proofs.Dispatch.Tracing

/-!
# Rules that are added

Rules that are added behind others have their turn only where all others were passed over. A request
that failed or was decided before is dispatched as if they were not there, and the trace of any other
goes on where it ended.
-/

namespace Signpost

variable {store : Store} {ctx : Context}

/-! ## The walk over more rules -/

theorem Walk.along_append (store : Store) (routes later : List Route) (ctx : Context)
    (metrics : Metrics) :
    along store (routes ++ later) ctx metrics =
      match (along store routes ctx metrics).decision with
      | .ok none =>
        along store later (along store routes ctx metrics).context
          (along store routes ctx metrics).metrics
      | _ => along store routes ctx metrics := by
  induction routes generalizing ctx metrics with
  | nil => rfl
  | cons route routes ih =>
    rw [List.cons_append, along, along]
    cases (route.attempt store ctx).answer with
    | error e => rfl
    | ok attempt =>
      cases hfinal : attempt.verdict.isFinal with
      | true => simp only [hfinal, if_true]
      | false =>
        simp only [hfinal]
        exact ih ..

namespace RouteTable

variable {table larger : RouteTable} {path : String}

/-! ## Adding rules -/

/-- Adds rules behind the others, one after the other. -/
def addAll (table : RouteTable) (rules : List (String × Destination)) : Except Error RouteTable :=
  rules.foldlM (fun table rule => table.add rule.1 rule.2) table

theorem addAll_eq {rules : List (String × Destination)} (h : table.addAll rules = .ok larger) :
    ∃ later, larger = { table with routes := table.routes ++ later } := by
  induction rules generalizing table with
  | nil =>
    cases h
    exact ⟨[], by rw [List.append_nil]⟩
  | cons rule rules ih =>
    rw [addAll, List.foldlM_cons] at h
    obtain ⟨added, hadd, hrest⟩ := bind_eq_ok.1 h
    obtain ⟨pattern, -, heq⟩ := bind_eq_ok.1 hadd
    cases heq
    obtain ⟨later, rfl⟩ := ih hrest
    exact ⟨⟨rule.1, pattern, rule.2⟩ :: later, by simp⟩

/-! ## The dispatch over more rules -/

theorem dispatch_append (table : RouteTable) (later : List Route) (store : Store) (path : String) :
    { table with routes := table.routes ++ later }.dispatch store path =
        table.dispatch store path ∨
      ((table.prepare store path).answer = .ok () ∧
        ended? (table.prepare store path).context = none ∧
        (Walk.along store table.routes (table.prepare store path).context {}).decision =
          .ok none) := by
  have hprepare : { table with routes := table.routes ++ later }.prepare store path =
      table.prepare store path := rfl
  have hfinish : ∀ decision ctx, { table with routes := table.routes ++ later }.finish decision ctx =
      table.finish decision ctx := fun _ _ => rfl
  cases hbefore : (table.prepare store path).answer with
  | error e => exact .inl (by simp only [dispatch, hprepare, hbefore])
  | ok _ =>
    cases hended : ended? (table.prepare store path).context with
    | some d => exact .inl (by simp only [dispatch, hprepare, hbefore, hended])
    | none =>
      cases hdecision :
          (Walk.along store table.routes (table.prepare store path).context {}).decision with
      | error e =>
        refine .inl ?_
        simp only [dispatch, hprepare, hfinish, hbefore, hended, Walk.along_append, hdecision]
      | ok decision =>
        cases decision with
        | none => exact .inr ⟨rfl, rfl, rfl⟩
        | some decision =>
          refine .inl ?_
          simp only [dispatch, hprepare, hfinish, hbefore, hended, Walk.along_append, hdecision]

/-- The dispatch fails, or the handler of the table ends it, or a rule decides it. -/
def Settled (table : RouteTable) (store : Store) (path : String) : Prop :=
  (∃ e, (table.dispatch store path).result = .error e) ∨ table.EndedBefore store path ∨
    ∃ d m v, (table.dispatch store path).result = .ok (d, m) ∧ m.last? = some v ∧ v.isFinal = true

theorem isEnded_prepare_iff :
    (table.prepare store path).context.isEnded = true ↔ table.EndedBefore store path :=
  flag_prepare_iff rfl Handler.run_isEnded

theorem not_settled (hbefore : (table.prepare store path).answer = .ok ())
    (hended : ended? (table.prepare store path).context = none)
    (hdecision : (Walk.along store table.routes (table.prepare store path).context {}).decision =
      .ok none) : ¬table.Settled store path := by
  obtain ⟨tried, ctx, -, hpasses, hwalk⟩ := Walk.passes_of_undecided hdecision
  have hresult := dispatch_walk hbefore hended
  rw [hwalk] at hresult
  rintro (⟨e, he⟩ | hends | ⟨d, m, v, hm, hlast, hfinal⟩)
  · cases hresult.symm.trans he
  · rw [← isEnded_prepare_iff, ended?_eq_none hended] at hends
    cases hends
  · have htrace : ∀ e ∈ (Metrics.recordAll {} tried).trace, e.verdict.isFinal = false := by
      rw [Metrics.trace_recordAll]
      exact hpasses.verdicts
    cases hresult.symm.trans hm
    exact Metrics.last?_ne_of_isFinal htrace hfinal hlast

/-- Rules that are added behind the others have no say in a request that is settled without them. The
trace of any other request begins with the trace that it has without them. -/
theorem dispatch_addAll {rules : List (String × Destination)} (h : table.addAll rules = .ok larger) :
    (table.Settled store path → larger.dispatch store path = table.dispatch store path) ∧
      (¬table.Settled store path → ∃ d m, (table.dispatch store path).result = .ok (d, m) ∧
        ∀ d' m', (larger.dispatch store path).result = .ok (d', m') → m.trace <+: m'.trace) := by
  obtain ⟨later, rfl⟩ := addAll_eq h
  refine ⟨fun hsettled => ?_, fun hsettled => ?_⟩
  · rcases dispatch_append table later store path with hsame | ⟨hbefore, hended, hdecision⟩
    · exact hsame
    · exact absurd hsettled (not_settled hbefore hended hdecision)
  · cases hresult : (table.dispatch store path).result with
    | error e => exact absurd (.inl ⟨e, hresult⟩) hsettled
    | ok r =>
      refine ⟨r.1, r.2, rfl, fun d' m' hlarger => ?_⟩
      rcases dispatch_append table later store path with hsame | ⟨hbefore, hended, hdecision⟩
      · cases (hsame ▸ hresult).symm.trans hlarger
        exact List.prefix_rfl
      · have hprepared : ({ table with routes := table.routes ++ later }.prepare store path).answer =
            .ok () := hbefore
        have hmore : m'.trace = (Walk.along store (table.routes ++ later)
            (table.prepare store path).context {}).metrics.trace :=
          trace_of_dispatch hprepared hended hlarger
        rw [trace_of_dispatch hbefore hended hresult, hmore, Walk.along_append, hdecision]
        exact Walk.prefix_trace_along ..

/-! ### A list behind the entries -/

def entriesTable : RouteTable where
  routes := [.toTemplate "blog/:num" ⟨"blog", "entry"⟩]

theorem dispatch_addAll_list :
    ∃ larger d m, entriesTable.addAll [("blog/:any", .ofText "blog/list")] = .ok larger ∧
      larger.dispatch (MemoryStore.toStore {}) "blog/7" =
        entriesTable.dispatch (MemoryStore.toStore {}) "blog/7" ∧
      (entriesTable.dispatch (MemoryStore.toStore {}) "blog/hello").result = .ok (d, m) ∧
      ∀ d' m', (larger.dispatch (MemoryStore.toStore {}) "blog/hello").result = .ok (d', m') →
        m.trace <+: m'.trace := by
  let store := MemoryStore.toStore {}
  have hadd : (entriesTable.addAll [("blog/:any", .ofText "blog/list")]).toOption.isSome = true := by
    decide +kernel
  obtain ⟨larger, hlarger⟩ := Option.isSome_iff_exists.1 hadd
  have hentry : (entriesTable.dispatch store "blog/7").result.toOption.bind
      (fun r => r.2.last?) = some .selected := by
    decide +kernel
  obtain ⟨⟨d, m⟩, hresult, hlast⟩ := Option.bind_eq_some_iff.1 hentry
  have hsettled : entriesTable.Settled store "blog/7" :=
    .inr (.inr ⟨d, m, .selected, ok_of_toOption hresult, hlast, rfl⟩)
  have hundecided : (Walk.along store entriesTable.routes
      (entriesTable.prepare store "blog/hello").context {}).decision.toOption.map Option.isNone =
        some true := by
    decide +kernel
  obtain ⟨decision, hdecision, hnone⟩ := Option.map_eq_some_iff.1 hundecided
  rw [Option.isNone_iff_eq_none.1 hnone] at hdecision
  obtain ⟨-, hmore⟩ := dispatch_addAll (ok_of_toOption hlarger)
  obtain ⟨d', m', hlist, htrace⟩ := hmore (not_settled rfl rfl (ok_of_toOption hdecision))
  exact ⟨larger, d', m', ok_of_toOption hlarger, (dispatch_addAll (ok_of_toOption hlarger)).1 hsettled,
    hlist, htrace⟩

end RouteTable

end Signpost
