import Signpost.Dispatch.Attempt

/-!
# Dispatches

A request is dispatched by running the handler of the table, trying the rules, and filling the
tokens of the rule that was selected into globals and into the template.
-/

namespace Signpost

/-- What the host is to do with a request. -/
inductive Outcome
  | template (t : Template)
  /-- Send a response at once. -/
  | emit (r : Response)
  | notFound
  /-- No rule applies, or the path is that of a page. -/
  | notRoutable
  deriving DecidableEq, Repr

namespace Outcome

def isRoutable : Outcome → Bool
  | notRoutable => false
  | _ => true

end Outcome

structure Dispatch where
  outcome : Outcome
  /-- The path that rules were matched against. -/
  path : String
  isPage : Bool
  globals : Names String
  vars : Names Variable
  headers : Names String
  status : Option Nat
  /-- The tokens of the rule that decided the request. -/
  tokens : List Token
  /-- The end of the path, from the first wildcard on. -/
  queryString : Option String := none
  /-- The path of a page that the first token names. -/
  virtualPage : Option String := none
  deriving DecidableEq, Repr

namespace Dispatch

def ofContext (ctx : Context) (outcome : Outcome) (tokens : List Token) : Dispatch where
  outcome
  path := ctx.path
  isPage := ctx.isPage
  globals := ctx.globals
  vars := ctx.vars
  headers := ctx.headers
  status := ctx.status
  tokens

def token? (d : Dispatch) (index : Nat) : Option Token := d.tokens.find? (·.index == index)

end Dispatch

/-! ## After the walk -/

/-- The path of a page that the first token names. -/
def Pages.named? (pages : Pages) (tokens : List Token) : Option String := do
  let first ← tokens.head?.filter (·.index == 1)
  let value ← first.value
  let path := "/" ++ value
  if pages.owns path then some path else none

/-- Fills tokens into the globals and into the template, if there is one. -/
def Context.fill (ctx : Context) (tokens : List Token) : Context :=
  if ctx.hasTemplate then
    let ctx := Token.exportAll tokens ctx
    { ctx with template := ctx.template.map (Token.substituteAll tokens) }
  else ctx

/-- The outcome of a request that was neither answered nor refused. -/
def Context.outcome (ctx : Context) : Outcome :=
  match ctx.template with
  | some t => if ctx.isRoutable then .template t else .notRoutable
  | none => .notRoutable

namespace RouteTable

/-- A request that no rule decided; the handler of the table may have set a template. -/
def finishUndecided (ctx : Context) : Dispatch :=
  let ctx := ctx.fill []
  .ofContext ctx ctx.outcome []

def finishSelected (table : RouteTable) (pattern : Pattern) (tokens : List Token) (ctx : Context) :
    Dispatch :=
  let queryString := if pattern.hasWildcard then pattern.remainder? ctx.path else none
  let virtualPage := if ctx.isPage then none else table.pages.named? tokens
  let ctx := ctx.fill tokens
  { Dispatch.ofContext ctx ctx.outcome tokens with queryString, virtualPage }

def finish (table : RouteTable) (decision : Option Decision) (ctx : Context) : Dispatch :=
  match decision with
  | none => finishUndecided ctx
  | some d =>
    match d.attempt.verdict with
    | .notFound => .ofContext ctx .notFound d.tokens
    | .emitted => .ofContext ctx (.emit (ctx.response d.attempt.body)) d.tokens
    | _ => table.finishSelected d.route.pattern d.tokens ctx

/-! ## Dispatching -/

/-- The context that a request starts with. -/
def start (table : RouteTable) (path : String) : Context :=
  let ctx := Context.new path
  { ctx with charset := table.charset, isPage := table.pages.owns ("/" ++ ctx.path) }

/-- The context after the handler of the table has run. -/
def prepare (table : RouteTable) (store : Store) (path : String) : Progress Unit :=
  match table.before with
  | some h => h.run store [] (table.start path)
  | none => ⟨.ok (), [], table.start path⟩

/-- The dispatch of a request that the handler of the table has ended by itself. -/
def ended? (ctx : Context) : Option Dispatch :=
  if ctx.notFound then some (.ofContext ctx .notFound [])
  else if ctx.isRedirecting then some (.ofContext ctx (.emit (ctx.response "")) [])
  else none

end RouteTable

/-- A dispatch with what it took to find it. The questions to the store and the notes of handlers
are there also where it failed. -/
structure DispatchRun where
  result : Except Error (Dispatch × Metrics)
  calls : List Call
  journal : List String

namespace RouteTable

def dispatch (table : RouteTable) (store : Store) (path : String) : DispatchRun :=
  let prepared := table.prepare store path
  match prepared.answer with
  | .error e => ⟨.error e, prepared.context.calls, prepared.context.journal⟩
  | .ok () =>
    match ended? prepared.context with
    | some d =>
      ⟨.ok (d, { lookups := prepared.context.lookups }), prepared.context.calls,
        prepared.context.journal⟩
    | none =>
      let walk := Walk.along store table.routes prepared.context {}
      ⟨walk.decision.map fun decision =>
          (table.finish decision walk.context,
            { walk.metrics with lookups := walk.context.lookups }),
        walk.context.calls, walk.context.journal⟩

end RouteTable

end Signpost
