import Signpost.Proofs.Dispatch.Selected
import Signpost.Proofs.Dispatch.Tracing
import Signpost.Proofs.Handler.Globals

/-!
# Globals of a dispatch

Every dispatch has the numbered globals. Where it leads to a template they hold the texts of the
tokens, which are exported last; and where a rule chose the template by itself they hold the columns
that its tokens were checked against.
-/

namespace Signpost

variable {store : Store} {ctx ctx' : Context} {route : Route} {attempt : Attempt}
  {tokens : List Token} {t : Template}

theorem Token.Numbered.nodup {ts : List Token} (h : Numbered ts) : (ts.map index).Nodup :=
  (List.Perm.nodup_iff h).2 List.nodup_range'

/-! ## One rule -/

/-- The template that a rule leads to by itself. -/
def Destination.template? : Destination → Option Template
  | .template t => some t
  | .handler _ => none

theorem Destination.template?_eq_some {d : Destination} :
    d.template? = some t ↔ d = .template t := by
  cases d <;> simp [template?]

theorem Destination.keysWithin_reach (store : Store) (p : Pattern) (tokens : List Token)
    (hctx : Context.blankGlobals.KeysWithin ctx.globals) (destination : Destination) :
    Context.blankGlobals.KeysWithin (destination.reach store p tokens ctx).context.globals := by
  cases destination with
  | handler h =>
    have hrun := h.keysWithin_run store tokens hctx
    simp only [reach, Progress.andThen]
    split <;> exact hrun
  | template t =>
    have hchecked : Context.blankGlobals.KeysWithin (if p.needsStore then
        Token.validate store tokens ctx else ⟨.ok true, tokens, ctx⟩).context.globals := by
      split
      · exact hctx.trans (Token.keysWithin_validate store tokens ctx)
      · exact hctx
    simp only [reach, Progress.andThen]
    split
    · next valid _ => cases valid <;> exact hchecked
    · exact hchecked

theorem Route.keysWithin_attempt (store : Store) (route : Route)
    (hctx : Context.blankGlobals.KeysWithin ctx.globals) :
    Context.blankGlobals.KeysWithin (route.attempt store ctx).context.globals := by
  unfold attempt
  split
  · exact Destination.keysWithin_reach _ _ _ hctx _
  · exact hctx

theorem Route.showsRow_attempt (hdest : route.destination = .template t)
    (h : (route.attempt store ctx).answer = .ok attempt) (hverdict : attempt.verdict = .selected) :
    ∀ token ∈ (route.attempt store ctx).tokens,
      token.ShowsRow (route.attempt store ctx).context.globals := by
  unfold Route.attempt at h ⊢
  cases hcaptures : route.pattern.regex.captures? ctx.path with
  | none => simp
  | some captures =>
    have hnodup := (Token.numbered_ofCaptures route.pattern captures).nodup
    simp only [hcaptures, hdest, Destination.reach, Progress.andThen] at h ⊢
    cases hneeds : route.pattern.needsStore with
    | false =>
      simp only [hneeds, if_true, Bool.false_eq_true, if_false] at h ⊢
      intro token htoken l hl
      rw [Token.lookup?_of_needsStore hneeds htoken] at hl
      cases hl
    | true =>
      simp only [hneeds, if_true] at h ⊢
      cases hanswer : (Token.validate store (Token.ofCaptures route.pattern captures) ctx).answer with
      | error e =>
        simp only [hanswer] at h
        cases h
      | ok valid =>
        cases valid with
        | false =>
          simp only [hanswer] at h
          cases h
          cases hverdict
        | true => exact Token.showsRow_validate hnodup hanswer

theorem Walk.Passes.keysWithin {tried : List (Route × Verdict)} (h : Passes store tried ctx ctx')
    (hctx : Context.blankGlobals.KeysWithin ctx.globals) :
    Context.blankGlobals.KeysWithin ctx'.globals := by
  induction h with
  | nil => exact hctx
  | cons _ _ _ ih => exact ih (Route.keysWithin_attempt _ _ hctx)

/-! ## The end of a dispatch -/

namespace Context

theorem contains_blankGlobals {i : Nat} (hi : i ≤ 10) :
    blankGlobals.contains (globalName i) = true := by
  have hfound : blankGlobals.get? (globalName i) = some "" :=
    Dict.get?_foldl_insert
      (fun e he _ => by obtain ⟨j, -, rfl⟩ := List.mem_map.1 he; rfl)
      (.inr ⟨_, List.mem_map_of_mem (List.mem_range.2 (Nat.lt_succ_of_le hi)), rfl⟩)
  rw [Dict.contains, hfound]
  rfl

theorem keysWithin_fill (ctx : Context) (tokens : List Token) :
    ctx.globals.KeysWithin (ctx.fill tokens).globals := by
  unfold fill
  split
  · exact Token.keysWithin_exportAll tokens ctx
  · exact .refl ctx.globals

theorem globals_fill (h : (ctx.fill tokens).outcome = .template t) :
    (ctx.fill tokens).globals = (Token.exportAll tokens ctx).globals := by
  -- The template comes of filling in the tokens, so their texts were exported.
  rw [fill, if_pos (hasTemplate_of_outcome_fill h)]

end Context

namespace RouteTable

variable {table : RouteTable} {path : String} {d : Dispatch} {m : Metrics}
  {decision : Option Decision}

theorem keysWithin_finish (table : RouteTable) (decision : Option Decision) (ctx : Context) :
    ctx.globals.KeysWithin (table.finish decision ctx).globals := by
  unfold finish
  split
  · exact ctx.keysWithin_fill []
  · split
    · exact .refl ctx.globals
    · exact .refl ctx.globals
    · exact ctx.keysWithin_fill _

theorem tokens_finish (table : RouteTable) (decision : Decision) (ctx : Context) :
    (table.finish (some decision) ctx).tokens = decision.tokens := by
  unfold finish
  simp only
  split <;> rfl

theorem globals_finish (h : (table.finish decision ctx).outcome = .template t) :
    (table.finish decision ctx).globals =
      (Token.exportAll (table.finish decision ctx).tokens ctx).globals := by
  cases decision with
  | none => exact Context.globals_fill h
  | some decision =>
    rw [tokens_finish]
    unfold finish at h ⊢
    simp only at h ⊢
    split at h
    · cases h
    · cases h
    · exact Context.globals_fill h

theorem selected_of_template (hfinal : attempt.verdict.isFinal = true)
    (h : (table.finish (some ⟨route, attempt, tokens⟩) ctx).outcome = .template t) :
    attempt.verdict = .selected := by
  rcases table.outcome_finish_cases route tokens ctx hfinal with
    ⟨-, r, houtcome⟩ | ⟨-, houtcome⟩ | ⟨hverdict, -⟩
  · cases h.symm.trans houtcome
  · cases h.symm.trans houtcome
  · exact hverdict

/-- The rule that decides a request, if the handler of the table lets the rules be tried. -/
def winner? (table : RouteTable) (store : Store) (path : String) : Option Route :=
  (Walk.along store table.routes (table.prepare store path).context {}).decision.toOption.join.map
    Decision.route

theorem keysWithin_prepare (table : RouteTable) (store : Store) (path : String) :
    Context.blankGlobals.KeysWithin (table.prepare store path).context.globals := by
  have hstart : Context.blankGlobals.KeysWithin (table.start path).globals := .refl _
  unfold prepare
  split
  · exact Handler.keysWithin_run _ store [] hstart
  · exact hstart

theorem globals_ended? (h : ended? ctx = some d) : d.globals = ctx.globals := by
  unfold ended? at h
  split at h
  · cases h
    rfl
  · split at h <;> cases h
    rfl

theorem Course.keysWithin (h : Course table store path d m) :
    Context.blankGlobals.KeysWithin d.globals := by
  have hprepared := table.keysWithin_prepare store path
  cases h with
  | ended hended => exact globals_ended? hended ▸ hprepared
  | undecided _ _ hpasses => exact (hpasses.keysWithin hprepared).trans (table.keysWithin_finish ..)
  | decided _ _ hpasses =>
    exact (Route.keysWithin_attempt _ _ (hpasses.keysWithin hprepared)).trans
      (table.keysWithin_finish ..)

theorem Course.globals_of_template (h : Course table store path d m) (ht : d.outcome = .template t) :
    ∃ ctx, d.globals = (Token.exportAll d.tokens ctx).globals ∧ Token.Numbered d.tokens ∧
      ∀ route t, table.winner? store path = some route → route.destination = .template t →
        ∀ token ∈ d.tokens, token.ShowsRow ctx.globals := by
  cases h with
  | ended hended => exact absurd ht ((ended?_eq_some hended).2.2 t)
  | @undecided tried ctx hended hroutes hpasses =>
    exact ⟨ctx, globals_finish ht, List.Perm.refl _, fun _ _ _ _ token htoken => nomatch htoken⟩
  | @decided tried route later ctx attempt hended hroutes hpasses hanswer hfinal =>
    have hselected := selected_of_template hfinal ht
    have hwinner : table.winner? store path = some route := by
      have hwalk := Walk.along_passes hpasses (route :: later) {}
      rw [← hroutes, Walk.along_decided hanswer hfinal] at hwalk
      rw [winner?, hwalk]
      rfl
    refine ⟨(route.attempt store ctx).context, globals_finish ht, ?_, ?_⟩
    · rw [tokens_finish]
      exact route.attempt_numbered store ctx
    · intro winner t hfound hdest
      obtain rfl : route = winner := Option.some.inj (hwinner.symm.trans hfound)
      rw [tokens_finish]
      exact Route.showsRow_attempt hdest hanswer hselected

/-- The globals of a dispatch: the numbered ones are always there; a template finds the texts of the
tokens in them, and the columns of their rows if its rule is a plain one. -/
theorem dispatch_globals (h : (table.dispatch store path).result = .ok (d, m)) :
    (∀ i ≤ 10, d.globals.contains (Context.globalName i) = true) ∧
      ∀ t, d.outcome = .template t →
        (∀ token ∈ d.tokens,
          d.globals.get? (Context.globalName token.index) = some token.text) ∧
        ∀ route t, table.winner? store path = some route → route.destination = .template t →
          ∀ token ∈ d.tokens, token.ShowsRow d.globals := by
  obtain ⟨-, hcourse⟩ := course_of_dispatch h
  refine ⟨fun i hi => hcourse.keysWithin.contains _ (Context.contains_blankGlobals hi), ?_⟩
  intro t ht
  obtain ⟨ctx, hglobals, htokens, hrows⟩ := hcourse.globals_of_template ht
  refine ⟨fun token htoken => ?_, fun route t hwinner hdest token htoken => ?_⟩
  · rw [hglobals]
    exact Token.get?_exportAll htokens.nodup htoken ctx
  · refine (hrows route t hwinner hdest token htoken).of_get? fun c => ?_
    rw [hglobals]
    exact Token.get?_exportAll_ne (token.columnGlobal_ne_globalName c) d.tokens ctx

/-! ### A rule whose token is looked up -/

/-- A blog with one entry. -/
def helloStore : Store :=
  MemoryStore.toStore { entries := [.ofList [("entry_id", "5"), ("title", "Hello")]] }

/-- The entries of a blog by their numbers. -/
def helloTable : RouteTable where
  routes := [.toTemplate "blog/:entry_id" ⟨"blog", "entry"⟩]

/-- The number of the entry, once it is looked up. -/
def entryToken : Token where
  index := 1
  value := some "5"
  kind := some .entryId
  columns := some (.ofList [("entry_id", some "5"), ("title", some "Hello"), ("url_title", some ""),
    ("channel_id", some "")])

theorem dispatch_globals_entry :
    ∃ d m, (helloTable.dispatch helloStore "blog/5").result = .ok (d, m) ∧
      (∃ t, d.outcome = .template t) ∧ d.globals.contains "route_10" = true ∧
      d.globals.get? "route_1" = some "5" ∧ d.globals.get? "route_1_title" = some "Hello" := by
  have hresult : ((helloTable.dispatch helloStore "blog/5").result.toOption.map fun r =>
      (r.1.tokens, r.2.trace.getLast?.map TraceEntry.verdict)) =
        some ([entryToken], some .selected) := by
    decide +kernel
  have hpage : helloTable.pages.owns ("/" ++ Text.dropTrailingSlashes "blog/5") = false := by
    decide +kernel
  have htemplate : helloTable.template? helloStore "blog/5" = some ⟨"blog", "entry"⟩ := by
    decide +kernel
  have hwinner : ((helloTable.winner? helloStore "blog/5").bind fun route =>
      route.destination.template?) = some ⟨"blog", "entry"⟩ := by
    decide +kernel
  obtain ⟨⟨d, m⟩, hrun, heq⟩ := Option.map_eq_some_iff.1 hresult
  obtain ⟨htokens, hlast⟩ := Prod.mk.inj heq
  have hdispatch := ok_of_toOption hrun
  obtain ⟨t, houtcome⟩ := routed_of_selected hdispatch hpage hlast htemplate
    (.inr ⟨'b', by decide, by decide, rfl⟩) (.inr ⟨'e', by decide, by decide, rfl⟩)
  obtain ⟨hnumbered, hexported⟩ := dispatch_globals hdispatch
  obtain ⟨htexts, hrows⟩ := hexported _ houtcome
  obtain ⟨route, hroute, hdest⟩ := Option.bind_eq_some_iff.1 hwinner
  have hmem : entryToken ∈ d.tokens := htokens ▸ List.mem_singleton_self entryToken
  refine ⟨d, m, hdispatch, ⟨_, houtcome⟩, hnumbered 10 (Nat.le_refl 10), htexts _ hmem, ?_⟩
  have hplain := Destination.template?_eq_some.1 hdest
  obtain ⟨v, hv, hglobal⟩ := hrows route _ hroute hplain _ hmem _ rfl "title" (by decide)
  have hcolumn : entryToken.column? "title" = some "Hello" := by decide +kernel
  rw [Option.some.inj (hcolumn.symm.trans hv)]
  exact hglobal

end RouteTable

end Signpost
