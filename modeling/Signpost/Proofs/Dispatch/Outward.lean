import Signpost.Dispatch.Basic
import Signpost.Proofs.Handler.Changes

/-!
# What counts of a context

A dispatch shows nothing of the questions and notes on its way, and of a template only what it is set
to. Contexts that differ in nothing else take the same way over the rules, as long as the handlers
are discreet, and come to the same dispatch.
-/

namespace Signpost

variable {store : Store} {ctx ctx' : Context} {route : Route}

namespace Context

/-- The context without questions and notes, and with a template only if it is set. -/
def outward (ctx : Context) : Context :=
  { ctx with
    template := ctx.template.filter Template.isSet
    lookups := 0
    calls := []
    journal := [] }

theorem outward_isView : IsView outward := ⟨fun _ _ _ => rfl, fun _ _ => rfl, fun _ => rfl⟩

theorem outward_eq_of_unasked (h : ctx.unasked = ctx'.unasked) : ctx.outward = ctx'.outward :=
  calc ctx.outward = ctx.unasked.outward := rfl
    _ = ctx'.unasked.outward := by rw [h]

theorem outward_withTemplate (h : ctx.outward = ctx'.outward) (t : Option Template) :
    { ctx with template := t }.outward = { ctx' with template := t }.outward :=
  congrArg (fun c : Context => { c with template := t.filter Template.isSet }) h

theorem hasTemplate_outward (ctx : Context) : ctx.outward.hasTemplate = ctx.hasTemplate := by
  unfold hasTemplate outward
  cases ctx.template with
  | none => rfl
  | some t => cases hset : t.isSet <;> simp [hset]

theorem template_outward (h : ctx.hasTemplate = true) :
    ctx.template.filter Template.isSet = ctx.template := by
  unfold hasTemplate at h
  cases htemplate : ctx.template with
  | none => rfl
  | some t =>
    rw [htemplate] at h
    exact Option.filter_eq_some_iff.2 ⟨rfl, h⟩

theorem outward_outward (ctx : Context) : ctx.outward.outward = ctx.outward := by
  unfold outward
  simp [Option.filter_filter]

/-! ## The end of a dispatch -/

theorem outcome_outward (ctx : Context) : ctx.outward.outcome = ctx.outcome := by
  have hroutable : ctx.outward.isRoutable = ctx.isRoutable :=
    congrArg (· && !ctx.isPage) ctx.hasTemplate_outward
  unfold outcome
  rw [hroutable]
  cases hhas : ctx.hasTemplate with
  | true => rw [show ctx.outward.template = ctx.template from template_outward hhas]
  | false =>
    have hnot : ctx.isRoutable = false := by rw [isRoutable, hhas, Bool.false_and]
    rw [hnot]
    cases ctx.template <;> cases ctx.outward.template <;> rfl

theorem fill_outward (ctx : Context) (tokens : List Token) :
    (ctx.outward.fill tokens).outward = (ctx.fill tokens).outward := by
  unfold fill
  rw [hasTemplate_outward]
  split
  · next hhas =>
    have hexport : Token.exportAll tokens ctx.outward = (Token.exportAll tokens ctx).outward :=
      (outward_isView.foldl_setGlobal ctx (fun t : Token => globalName t.index) Token.text
        tokens).symm
    have hkept : (Token.exportAll tokens ctx).outward.template =
        (Token.exportAll tokens ctx).template := by
      refine template_outward ?_
      rw [AfterInquiry.exportAll tokens ctx]
      exact hhas
    rw [hexport]
    simp only [hkept]
    exact outward_withTemplate (outward_outward _) _
  · exact outward_outward ctx

end Context

namespace RouteTable

theorem finish_outward (table : RouteTable) (decision : Option Decision) (ctx : Context) :
    table.finish decision ctx.outward = table.finish decision ctx := by
  have hfilled : ∀ tokens, Dispatch.ofContext (ctx.outward.fill tokens)
      (ctx.outward.fill tokens).outcome tokens =
        .ofContext (ctx.fill tokens) (ctx.fill tokens).outcome tokens := by
    intro tokens
    have hshown : ∀ (c : Context) (o : Outcome),
        Dispatch.ofContext c.outward o tokens = .ofContext c o tokens := fun _ _ => rfl
    rw [← Context.outcome_outward, Context.fill_outward, Context.outcome_outward, ← hshown,
      Context.fill_outward, hshown]
  cases decision with
  | none => exact hfilled []
  | some d =>
    have hselected : table.finishSelected d.route.pattern d.tokens ctx.outward =
        table.finishSelected d.route.pattern d.tokens ctx := by
      unfold finishSelected
      simp only [hfilled]
      rfl
    simp only [finish]
    cases d.attempt.verdict with
    | notFound | emitted => rfl
    | _ => exact hselected

theorem finish_alike (table : RouteTable) (decision : Option Decision)
    (h : ctx.outward = ctx'.outward) : table.finish decision ctx = table.finish decision ctx' := by
  rw [← finish_outward, h, finish_outward]

end RouteTable

/-! ## Discreet handlers -/

theorem Context.outward_setHeader (ctx : Context) (name value : String) :
    (ctx.setHeader name value).outward = ctx.outward.setHeader name value := by
  unfold setHeader
  split <;> rfl

theorem Context.outward_apply (ctx : Context) {c : Change} (hc : ∀ t, c ≠ .template t) :
    (ctx.apply c).outward = ctx.outward.apply c := by
  cases c
  case template t => exact absurd rfl (hc t)
  case rawHeader line =>
    simp only [apply]
    split
    · exact outward_setHeader ..
    · rfl
  case header | contentType | json => exact outward_setHeader ..
  all_goals rfl

theorem Context.apply_alike (h : ctx.outward = ctx'.outward) (c : Change) :
    (ctx.apply c).outward = (ctx'.apply c).outward := by
  cases c
  case template t => exact outward_withTemplate h (some t)
  all_goals rw [outward_apply ctx (by simp), outward_apply ctx' (by simp), h]

theorem Context.outward_renew (ctx ctx' : Context) (path : String) :
    (ctx.renew path).outward = (ctx'.renew path).outward := rfl

namespace Handler

variable {α : Type}

/-- A handler whose run depends on what counts of the context only. -/
def Discreet (store : Store) (h : Handler α) : Prop :=
  ∀ tokens ctx ctx', ctx.outward = ctx'.outward →
    Progress.Alike Context.outward (h.run store tokens ctx) (h.run store tokens ctx')

/-- Whether every look at the context goes on from what counts of it. -/
def LooksOutward : Handler α → Prop
  | done _ | fail _ => True
  | look next =>
    ∀ ctx tokens, next ctx tokens = next ctx.outward tokens ∧ (next ctx tokens).LooksOutward
  | change _ next | renew _ next | setValue _ _ next | note _ next => next.LooksOutward
  | check _ _ _ next => ∀ answer, (next answer).LooksOutward
  | examine _ _ _ next => ∀ answer t, (next answer t).LooksOutward

theorem discreet_of_looksOutward (h : Handler α) (hlooks : h.LooksOutward) : h.Discreet store := by
  intro tokens ctx ctx' hctx
  induction h generalizing tokens ctx ctx' with
  | done | fail => exact ⟨rfl, rfl, hctx⟩
  | look next ih =>
    have hnext : next ctx' tokens = next ctx tokens := by
      rw [(hlooks ctx' tokens).1, ← hctx, ← (hlooks ctx tokens).1]
    simp only [run, hnext]
    exact ih ctx tokens (hlooks ctx tokens).2 tokens ctx ctx' hctx
  | change c next ih => exact ih hlooks tokens _ _ (Context.apply_alike hctx c)
  | renew path next ih => exact ih hlooks tokens _ _ (Context.outward_renew _ _ path)
  | note message next ih => exact ih hlooks tokens _ _ hctx
  | examine t c filter next ih =>
    have hchecked := Token.check_alike Context.outward_isView store t c filter hctx
    simp only [run]
    rw [hchecked.answer, hchecked.token]
    exact ih _ _ (hlooks _ _) _ _ _ hchecked.context
  | setValue position value next ih =>
    simp only [run]
    split <;> exact ih hlooks _ _ _ hctx
  | check position c filter next ih =>
    simp only [run]
    split
    · next t _ =>
      have hchecked := Token.check_alike Context.outward_isView store t c filter hctx
      rw [hchecked.answer, hchecked.token]
      exact ih _ (hlooks _) _ _ _ hchecked.context
    · exact ih _ (hlooks _) _ _ _ hctx

end Handler

/-! ## Two runs of a rule -/

theorem Progress.Alike.andThen {α β : Type} {view : Context → Context} {p p' : Progress α}
    {f : α → List Token → Context → Progress β} (h : Alike view p p')
    (hf : ∀ a tokens ctx ctx', view ctx = view ctx' →
      Alike view (f a tokens ctx) (f a tokens ctx')) :
    Alike view (p.andThen f) (p'.andThen f) := by
  unfold Progress.andThen
  rw [h.answer, h.tokens]
  split
  · exact hf _ _ _ _ h.context
  · exact ⟨rfl, rfl, h.context⟩

theorem Attempt.ofAnswer_alike (body : Option String) (h : ctx.outward = ctx'.outward) :
    ofAnswer body ctx = ofAnswer body ctx' := by
  have houtward : ∀ ctx : Context, ofAnswer body ctx.outward = ofAnswer body ctx := by
    intro ctx
    unfold ofAnswer ofTemplate
    rw [ctx.hasTemplate_outward]
    rfl
  rw [← houtward, h, houtward]

theorem Destination.reach_alike {destination : Destination}
    (hdiscreet : ∀ h, destination = .handler h → h.Discreet store) (h : ctx.outward = ctx'.outward)
    (p : Pattern) (tokens : List Token) :
    Progress.Alike Context.outward (destination.reach store p tokens ctx)
      (destination.reach store p tokens ctx') := by
  cases destination with
  | handler hd =>
    simp only [reach]
    refine (hdiscreet hd rfl tokens ctx ctx' h).andThen fun body tokens ctx ctx' h => ?_
    exact ⟨congrArg Except.ok (Attempt.ofAnswer_alike body h), rfl, h⟩
  | template t =>
    have hchecked : Progress.Alike Context.outward
        (if p.needsStore then Token.validate store tokens ctx else ⟨.ok true, tokens, ctx⟩)
        (if p.needsStore then Token.validate store tokens ctx' else ⟨.ok true, tokens, ctx'⟩) := by
      split
      · exact Token.validate_alike Context.outward_isView h
      · exact ⟨rfl, rfl, h⟩
    simp only [reach]
    refine hchecked.andThen fun valid tokens ctx ctx' h => ?_
    cases valid with
    | false => exact ⟨rfl, rfl, h⟩
    | true => exact ⟨rfl, rfl, Context.outward_withTemplate h (some t)⟩

theorem Route.attempt_alike (hdiscreet : ∀ h, route.destination = .handler h → h.Discreet store)
    (h : ctx.outward = ctx'.outward) :
    Progress.Alike Context.outward (route.attempt store ctx) (route.attempt store ctx') := by
  unfold attempt
  rw [Context.outward_isView.path_eq h]
  cases route.pattern.regex.captures? ctx'.path with
  | none => exact ⟨rfl, rfl, h⟩
  | some captures => exact Destination.reach_alike hdiscreet h ..

theorem Walk.along_alike {routes : List Route}
    (hdiscreet : ∀ r ∈ routes, ∀ h, r.destination = .handler h → h.Discreet store)
    (h : ctx.outward = ctx'.outward) (metrics metrics' : Metrics) :
    (along store routes ctx metrics).decision = (along store routes ctx' metrics').decision ∧
      (along store routes ctx metrics).context.outward =
        (along store routes ctx' metrics').context.outward := by
  induction routes generalizing ctx ctx' metrics metrics' with
  | nil => exact ⟨rfl, h⟩
  | cons route routes ih =>
    have halike := Route.attempt_alike (hdiscreet route List.mem_cons_self) h
    rw [along, along, halike.answer, halike.tokens]
    cases (route.attempt store ctx').answer with
    | error e => exact ⟨rfl, halike.context⟩
    | ok attempt =>
      simp only
      split
      · exact ⟨rfl, halike.context⟩
      · exact ih (fun r hr => hdiscreet r (List.mem_cons_of_mem _ hr)) halike.context _ _

end Signpost
