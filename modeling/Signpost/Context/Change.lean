import Signpost.Context.Basic
import Signpost.Json

/-!
# Changes to a context

Everything that a handler can do to the context that it is given, besides checking tokens. It can
also put a new context in its place, which is not a change to it.
-/

namespace Signpost

inductive Change
  | path (value : String)
  | template (t : Template)
  | global (key value : String)
  | variable (name : String) (value : Variable)
  | header (name value : String)
  /-- A header as one line, `Name: value`. -/
  | rawHeader (line : String)
  | contentType (value : String)
  | status (code : Nat)
  | outputType (type : OutputType)
  | redirect (url : String) (status : Nat)
  /-- The status and content type of a JSON body. -/
  | json
  | notFound
  deriving DecidableEq, Repr

namespace Context

/-- Whether an address says by itself where it leads: it starts with a slash, a dot or a scheme. -/
def isAddress : List Char → Bool
  | '/' :: _ => true
  | '.' :: _ => true
  | cs =>
    let (scheme, rest) := cs.span fun c => 'a' ≤ c && c ≤ 'z'
    !scheme.isEmpty && "://".toList.isPrefixOf rest

/-- Where a redirect leads; other addresses are paths of templates. -/
def location (url : String) : String := if isAddress url.toList then url else "/" ++ url

/-- Sets a header; the content type is kept apart from the headers, however it is spelled. -/
def setHeader (ctx : Context) (name value : String) : Context :=
  if name.toList.map Char.toLower = "content-type".toList then
    { ctx with contentType := some value }
  else { ctx with headers := ctx.headers.insert name value }

def apply (ctx : Context) : Change → Context
  | .path value => { ctx with path := Text.dropTrailingSlashes value }
  | .template t => { ctx with template := some t }
  | .global key value => ctx.setGlobal key value
  | .variable name value => { ctx with vars := ctx.vars.insert name value }
  | .header name value => ctx.setHeader name value
  | .rawHeader line =>
    match Text.splitFirst? ':' line with
    | some (name, value) => ctx.setHeader (Text.trimBlanks name) (Text.trimBlanks value)
    | none => ctx
  | .contentType value => ctx.setHeader "Content-Type" value
  | .status code => { ctx with status := some code }
  | .outputType type => { ctx with outputType := type }
  | .redirect url status => { ctx with redirect := some (location url), status := some status }
  | .json => { ctx with status := some 200 }.setHeader "Content-Type" "application/json"
  | .notFound => { ctx with notFound := true, status := some 404 }

end Context

end Signpost
