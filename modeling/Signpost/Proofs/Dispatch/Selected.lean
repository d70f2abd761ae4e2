import Signpost.Store.Memory
import Signpost.Proofs.Dispatch.Walk
import Signpost.Proofs.Token.Placeholders

/-!
# Rules that are selected

A rule is selected for the template that is set when its turn is over; the tokens are filled in after
that. The request is routed if the template is still set then, which blank tokens can prevent, and no
further rule is tried.
-/

namespace Signpost

variable {store : Store} {ctx ctx' : Context} {route : Route} {attempt : Attempt}
  {tokens : List Token} {t : Template}

/-! ## The verdict -/

theorem Route.Tried.hasTemplate (h : Tried store route ctx attempt tokens ctx')
    (hverdict : attempt.verdict = .selected) : ctx'.hasTemplate = true := by
  cases h with
  | missed | rejected => cases hverdict
  | reached => exact Attempt.hasTemplate_of_selected hverdict
  | handled =>
    rcases Attempt.ofAnswer_cases _ _ with ⟨-, heq⟩ | ⟨hanswered, -⟩
    · exact Attempt.hasTemplate_of_selected (heq ▸ hverdict)
    · rcases hanswered with hanswered | hanswered <;>
      · rw [hverdict] at hanswered
        cases hanswered

/-! ## The tokens of a rule -/

theorem Token.Numbered.of_map_index {ts us : List Token} (hts : Numbered ts)
    (h : us.map index = ts.map index) : Numbered us := by
  have hlength : us.length = ts.length := by simpa using congrArg List.length h
  rw [Numbered, h, hlength]
  exact hts

theorem Destination.reach_map_index (store : Store) (p : Pattern) (tokens : List Token)
    (ctx : Context) (destination : Destination) :
    (destination.reach store p tokens ctx).tokens.map Token.index = tokens.map Token.index := by
  cases destination with
  | handler h =>
    have hrun : (h.run store tokens ctx).tokens.map Token.index = tokens.map Token.index :=
      h.run_map_index tokens ctx
    simp only [reach, Progress.andThen]
    split <;> exact hrun
  | template t =>
    have hchecked : (if p.needsStore then Token.validate store tokens ctx
        else ⟨.ok true, tokens, ctx⟩).tokens.map Token.index = tokens.map Token.index := by
      split
      · exact Token.map_index_validate store tokens ctx
      · rfl
    simp only [reach, Progress.andThen]
    split
    · next valid _ => cases valid <;> exact hchecked
    · exact hchecked

theorem Route.attempt_numbered (store : Store) (route : Route) (ctx : Context) :
    Token.Numbered (route.attempt store ctx).tokens := by
  -- Checks change the values of the tokens, but not their numbers.
  unfold attempt
  cases route.pattern.regex.captures? ctx.path with
  | none => exact List.Perm.refl _
  | some captures =>
    exact (Token.numbered_ofCaptures route.pattern captures).of_map_index
      (Destination.reach_map_index ..)

/-! ## The template with its tokens -/

theorem Context.template_fill (htemplate : ctx.template = some t) (hset : t.isSet = true)
    (tokens : List Token) : (ctx.fill tokens).template = some (Token.substituteAll tokens t) := by
  have hkept : (Token.exportAll tokens ctx).template = some t := by
    rw [AfterInquiry.exportAll tokens ctx]
    exact htemplate
  have hhas : ctx.hasTemplate = true := by simp [hasTemplate, htemplate, hset]
  rw [fill, if_pos hhas]
  exact congrArg (Option.map (Token.substituteAll tokens)) hkept

theorem Context.outcome_fill (htemplate : ctx.template = some t) (hset : t.isSet = true)
    (hpage : ctx.isPage = false) (tokens : List Token) :
    (ctx.fill tokens).outcome =
      if (Token.substituteAll tokens t).isSet then .template (Token.substituteAll tokens t)
      else .notRoutable := by
  have hfilled : (ctx.fill tokens).isPage = false := (ctx.isPage_fill tokens).trans hpage
  simp only [outcome, template_fill htemplate hset, isRoutable, hasTemplate, hfilled,
    Option.any_some, Bool.not_false, Bool.and_true]

theorem Token.isSet_substituteAll {ts : List Token} (hgroup : Lasts ts t.group)
    (hname : Lasts ts t.name) : (substituteAll ts t).isSet = true :=
  Template.isSet_iff.2 ⟨substitute_ne_empty hgroup, substitute_ne_empty hname⟩

theorem Token.isSet_substituteAll_iff {ts : List Token} (hts : Numbered ts)
    (hgroup : Inert ts t.group) (hname : Inert ts t.name) :
    (substituteAll ts t).isSet = true ↔ ¬Blank ts t.group ∧ ¬Blank ts t.name := by
  rw [Template.isSet_iff, ← substitute_eq_empty_iff hts hgroup, ← substitute_eq_empty_iff hts hname]
  exact Iff.rfl

namespace RouteTable

variable {table : RouteTable} {path : String} {d : Dispatch} {m : Metrics}

/-- The template that is set when the walk over the rules ends. -/
def template? (table : RouteTable) (store : Store) (path : String) : Option Template :=
  (Walk.along store table.routes (table.prepare store path).context {}).context.template

theorem Course.outcome_of_selected (h : Course table store path d m)
    (hpage : (table.prepare store path).context.isPage = false)
    (hlast : m.trace.getLast?.map TraceEntry.verdict = some .selected) :
    Token.Numbered d.tokens ∧ ∃ t, table.template? store path = some t ∧ t.isSet = true ∧
      d.outcome = if (Token.substituteAll d.tokens t).isSet then
          .template (Token.substituteAll d.tokens t)
        else .notRoutable := by
  have hpassed : ∀ {tried ctx}, Walk.Passes store tried (table.prepare store path).context ctx →
      (Metrics.recordAll {} tried).trace.getLast?.map TraceEntry.verdict ≠ some .selected := by
    intro tried ctx hpasses hselected
    rw [Metrics.trace_recordAll] at hselected
    obtain ⟨entry, hentry, hverdict⟩ := Option.map_eq_some_iff.1 hselected
    obtain ⟨r, hr, rfl⟩ := List.mem_map.1 (List.mem_of_getLast? hentry)
    have hfinal := hpasses.isFinal r hr
    rw [show r.2 = .selected from hverdict] at hfinal
    cases hfinal
  cases h with
  | ended => cases hlast
  | undecided _ _ hpasses => exact absurd hlast (hpassed hpasses)
  | @decided tried route later ctx attempt hended hroutes hpasses hanswer hfinal =>
    have hverdict : attempt.verdict = .selected :=
      Option.some.inj ((Metrics.getLast?_trace_record _ route _).symm.trans hlast)
    have htried := Route.tried_of_attempt hanswer
    obtain ⟨t, htemplate, hset⟩ := (Option.any_eq_true ..).1 (htried.hasTemplate hverdict)
    have hwalk := Walk.along_passes hpasses (route :: later) {}
    rw [← hroutes, Walk.along_decided hanswer hfinal] at hwalk
    rw [finish_selected table route _ _ hverdict]
    refine ⟨route.attempt_numbered store ctx, t, ?_, hset, ?_⟩
    · rw [template?, hwalk]
      exact htemplate
    · exact Context.outcome_fill htemplate hset
        (Route.isPage_attempt_eq_false (.inl (hpasses.isPage_eq_false hpage))) _

theorem routed_of_selected (h : (table.dispatch store path).result = .ok (d, m))
    (hpage : table.pages.owns ("/" ++ Text.dropTrailingSlashes path) = false)
    (hlast : m.trace.getLast?.map TraceEntry.verdict = some .selected)
    (htemplate : table.template? store path = some t)
    (hgroup : Token.Lasts d.tokens t.group) (hname : Token.Lasts d.tokens t.name) :
    ∃ t, d.outcome = .template t := by
  obtain ⟨-, hcourse⟩ := course_of_dispatch h
  obtain ⟨-, u, hu, -, houtcome⟩ :=
    hcourse.outcome_of_selected (isPage_prepare_eq_false store hpage) hlast
  obtain rfl : t = u := Option.some.inj (htemplate.symm.trans hu)
  rw [if_pos (Token.isSet_substituteAll hgroup hname)] at houtcome
  exact ⟨_, houtcome⟩

/-- A rule that is selected is routed if its template is still set once the tokens are filled in. That
is so for a group and a name that blank tokens cannot empty; and unless a text of a token is read as
a placeholder, it is so just if neither is made of the placeholders of blank tokens. -/
theorem dispatch_selected (h : (table.dispatch store path).result = .ok (d, m))
    (hpage : table.pages.owns ("/" ++ Text.dropTrailingSlashes path) = false)
    (hlast : m.trace.getLast?.map TraceEntry.verdict = some .selected) :
    ∃ t, table.template? store path = some t ∧ t.isSet = true ∧
      (d.outcome = if (Token.substituteAll d.tokens t).isSet then
          .template (Token.substituteAll d.tokens t)
        else .notRoutable) ∧
      (Token.Lasts d.tokens t.group → Token.Lasts d.tokens t.name →
        (Token.substituteAll d.tokens t).isSet = true) ∧
      (Token.Inert d.tokens t.group → Token.Inert d.tokens t.name →
        ((Token.substituteAll d.tokens t).isSet = true ↔
          ¬Token.Blank d.tokens t.group ∧ ¬Token.Blank d.tokens t.name)) := by
  obtain ⟨-, hcourse⟩ := course_of_dispatch h
  obtain ⟨htokens, t, htemplate, hset, houtcome⟩ :=
    hcourse.outcome_of_selected (isPage_prepare_eq_false store hpage) hlast
  exact ⟨t, htemplate, hset, houtcome, Token.isSet_substituteAll,
    Token.isSet_substituteAll_iff htokens⟩

/-! ### A rule with a token that may be left out -/

/-- Entries of a blog, page by page; the number of the page names the template. -/
def paginatedTable : RouteTable where
  routes := [.toTemplate "blog/:pagination" ⟨"blog", "$1"⟩]

theorem dispatch_selected_paginated :
    ∃ d m t, (paginatedTable.dispatch (MemoryStore.toStore {}) "blog/P10").result = .ok (d, m) ∧
      d.outcome = .template t ∧ t.isSet = true := by
  have hpage : paginatedTable.pages.owns ("/" ++ Text.dropTrailingSlashes "blog/P10") = false := by
    decide +kernel
  have htokens : ((paginatedTable.dispatch (MemoryStore.toStore {}) "blog/P10").result.toOption.map
      fun r => (r.1.tokens.map Token.text, r.2.trace.getLast?.map TraceEntry.verdict)) =
        some (["P10"], some .selected) := by
    decide +kernel
  have htemplate : paginatedTable.template? (MemoryStore.toStore {}) "blog/P10" =
      some ⟨"blog", "$1"⟩ := by
    decide +kernel
  obtain ⟨⟨d, m⟩, hresult, heq⟩ := Option.map_eq_some_iff.1 htokens
  obtain ⟨htexts, hlast⟩ := Prod.mk.inj heq
  obtain ⟨t, ht, -, houtcome, hlasts, -⟩ := dispatch_selected (ok_of_toOption hresult) hpage hlast
  obtain rfl : ⟨"blog", "$1"⟩ = t := Option.some.inj (htemplate.symm.trans ht)
  have hnames : ∀ u ∈ d.tokens, u.text ≠ "" := by
    intro u hu
    have hmem : u.text ∈ ["P10"] := htexts ▸ List.mem_map_of_mem hu
    simp_all
  have hset := hlasts (.inl ⟨by decide, hnames⟩) (.inl ⟨by decide, hnames⟩)
  rw [if_pos hset] at houtcome
  exact ⟨d, m, _, ok_of_toOption hresult, houtcome, hset⟩

/-- Where the token is left out the template loses its name, and no rule routes the request. -/
theorem selected_not_routed :
    ¬∀ (table : RouteTable) (store : Store) (path : String) (d : Dispatch) (m : Metrics),
      (table.dispatch store path).result = .ok (d, m) →
      table.pages.owns ("/" ++ Text.dropTrailingSlashes path) = false →
      m.trace.getLast?.map TraceEntry.verdict = some .selected →
      ∃ t, d.outcome = .template t ∧ t.isSet = true := by
  intro h
  have hpage : paginatedTable.pages.owns ("/" ++ Text.dropTrailingSlashes "blog") = false := by
    decide +kernel
  have htokens : ((paginatedTable.dispatch (MemoryStore.toStore {}) "blog").result.toOption.map
      fun r => (r.1.tokens, r.2.trace.getLast?.map TraceEntry.verdict)) =
        some ([.new 1 none (some .pagination)], some .selected) := by
    decide +kernel
  have htemplate : paginatedTable.template? (MemoryStore.toStore {}) "blog" = some ⟨"blog", "$1"⟩ := by
    decide +kernel
  obtain ⟨⟨d, m⟩, hresult, heq⟩ := Option.map_eq_some_iff.1 htokens
  obtain ⟨htoken, hlast⟩ := Prod.mk.inj heq
  have hrun := ok_of_toOption hresult
  obtain ⟨-, t, ht, -, houtcome⟩ := (course_of_dispatch hrun).2.outcome_of_selected
    (isPage_prepare_eq_false _ hpage) hlast
  obtain rfl : ⟨"blog", "$1"⟩ = t := Option.some.inj (htemplate.symm.trans ht)
  obtain ⟨t, hrouted, -⟩ := h paginatedTable _ "blog" d m hrun hpage hlast
  have hblank : (Token.substituteAll d.tokens ⟨"blog", "$1"⟩).isSet = false := by
    rw [htoken, Token.substituteAll]
    simp only [Token.substitute_of_descending (List.pairwise_singleton _ _)]
    decide +kernel
  rw [if_neg (by simp [hblank]), hrouted] at houtcome
  cases houtcome

end RouteTable

end Signpost
