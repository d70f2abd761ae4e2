import Signpost.Dispatch.Trace
import Signpost.Token.Capture

/-!
# Trying rules

The rules of a table are tried in order until one decides the request.
-/

namespace Signpost

/-! ## One rule -/

/-- Checks every token, also after one that is not valid, until the store fails. -/
def Token.checkAll (store : Store) : List Token → Context → Progress Bool
  | [], ctx => ⟨.ok true, [], ctx⟩
  | t :: ts, ctx =>
    let checked := t.check store .own .empty ctx
    match checked.answer with
    | .error e => ⟨.error (.store e), checked.token :: ts, checked.context⟩
    | .ok valid =>
      let rest := checkAll store ts checked.context
      ⟨rest.answer.map (valid && ·), checked.token :: rest.tokens, rest.context⟩

/-- Checks every token. Unless all are valid the globals stay as they were. -/
def Token.validate (store : Store) (tokens : List Token) (ctx : Context) : Progress Bool :=
  let checked := checkAll store tokens ctx
  match checked.answer with
  | .ok false => { checked with context.globals := ctx.globals }
  | _ => checked

/-- What a rule made of a request. -/
structure Attempt where
  verdict : Verdict
  /-- The body that its handler answered with, if the verdict is `emitted`. -/
  body : String := ""
  deriving DecidableEq, Repr

namespace Attempt

/-- A rule whose destination is reached is selected if the request has a template then. -/
def ofTemplate (ctx : Context) : Attempt where
  verdict := if ctx.hasTemplate then .selected else .declined

/-- What an answer of a handler comes to. An empty body is none. -/
def ofAnswer (body : Option String) (ctx : Context) : Attempt :=
  if ctx.notFound then { verdict := .notFound }
  else
    match body.filter (!·.isEmpty) with
    | some body => { verdict := .emitted, body }
    | none => if ctx.isRedirecting then { verdict := .emitted } else ofTemplate ctx

end Attempt

namespace Destination

/-- What becomes of a request whose path a rule matches. Tokens are checked only where the store has
a say in one of them. -/
def reach (store : Store) (pattern : Pattern) (tokens : List Token) (ctx : Context) :
    Destination → Progress Attempt
  | template t =>
    let checked :=
      if pattern.needsStore then Token.validate store tokens ctx else ⟨.ok true, tokens, ctx⟩
    checked.andThen fun valid tokens ctx =>
      if valid then
        let ctx := { ctx with template := some t }
        ⟨.ok (.ofTemplate ctx), tokens, ctx⟩
      else ⟨.ok { verdict := .rejected }, tokens, ctx⟩
  | handler h =>
    (h.run store tokens ctx).andThen fun body tokens ctx => ⟨.ok (.ofAnswer body ctx), tokens, ctx⟩

end Destination

def Route.attempt (store : Store) (route : Route) (ctx : Context) : Progress Attempt :=
  match route.pattern.regex.captures? ctx.path with
  | some captures =>
    route.destination.reach store route.pattern (Token.ofCaptures route.pattern captures) ctx
  | none => ⟨.ok { verdict := .noMatch }, [], ctx⟩

/-! ## All rules -/

/-- The rule that decided a request, with what it made of it and with its tokens. -/
structure Decision where
  route : Route
  attempt : Attempt
  tokens : List Token

/-- How far a request has come. The decision is an error if a handler or the store failed; it is
absent if every rule was passed over. -/
structure Walk where
  decision : Except Error (Option Decision)
  context : Context
  metrics : Metrics

/-- Tries rules in order until one decides the request. -/
def Walk.along (store : Store) : List Route → Context → Metrics → Walk
  | [], ctx, metrics => ⟨.ok none, ctx, metrics⟩
  | route :: routes, ctx, metrics =>
    let ran := route.attempt store ctx
    match ran.answer with
    | .error e => ⟨.error e, ran.context, metrics⟩
    | .ok attempt =>
      let metrics := metrics.record route attempt.verdict
      if attempt.verdict.isFinal then
        ⟨.ok (some ⟨route, attempt, ran.tokens⟩), ran.context, metrics⟩
      else along store routes ran.context metrics

end Signpost
