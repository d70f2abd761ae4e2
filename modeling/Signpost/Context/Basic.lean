import Signpost.Response
import Signpost.Store.Basic
import Signpost.Template
import Signpost.Variable

/-!
# The context of a request

What a request has gathered while it is routed: the path, the template chosen so far, the globals
and variables for templates, and the parts of a response.
-/

namespace Signpost

structure Context where
  /-- The path that rules are matched against. -/
  path : String
  /-- Whether the requested path is that of a page. -/
  isPage : Bool := false
  template : Option Template := none
  globals : Names String
  vars : Names Variable := .empty
  headers : Names String := .empty
  status : Option Nat := none
  contentType : Option String := none
  outputType : OutputType := .webpage
  /-- Where the request is redirected to. -/
  redirect : Option String := none
  notFound : Bool := false
  charset : String := "UTF-8"
  /-- How many questions the store has answered. -/
  lookups : Nat := 0
  /-- The questions put to the store, in order. -/
  calls : List Call := []
  /-- What handlers have noted down, in order. -/
  journal : List String := []
  deriving DecidableEq, Repr

namespace Context

/-- The name of the global with the text of a token. -/
def globalName (index : Nat) : String := "route_" ++ toString index

/-- The globals that every request has, blank. -/
def blankGlobals : Names String := .ofList ((List.range 11).map fun i => (globalName i, ""))

def new (path : String) : Context where
  path := Text.dropTrailingSlashes path
  globals := blankGlobals

/-- A new context for a path in place of this one. What was asked and noted is still on record. -/
def renew (ctx : Context) (path : String) : Context :=
  { new path with calls := ctx.calls, journal := ctx.journal }

def hasTemplate (ctx : Context) : Bool := ctx.template.any Template.isSet

/-- Whether a template is set and the path is not that of a page. -/
def isRoutable (ctx : Context) : Bool := ctx.hasTemplate && !ctx.isPage

def isRedirecting (ctx : Context) : Bool := ctx.redirect.isSome

def setGlobal (ctx : Context) (key value : String) : Context :=
  { ctx with globals := ctx.globals.insert key value }

/-- Writes a question down; one that was answered is counted. -/
def asked (ctx : Context) (call : Call) (answered : Bool) : Context :=
  { ctx with
    calls := ctx.calls ++ [call]
    lookups := if answered then ctx.lookups + 1 else ctx.lookups }

/-- The response with a body. A redirect sets the location, whatever headers were set; an XML body
is trimmed unless a content type was given. -/
def response (ctx : Context) (body : String) : Response where
  status := ctx.status.getD 200
  headers :=
    match ctx.redirect with
    | some location => ctx.headers.insert "Location" location
    | none => ctx.headers
  contentType := ctx.contentType.or (ctx.outputType.contentType? ctx.charset)
  body := if ctx.contentType.isNone && ctx.outputType == .xml then Text.trimBlanks body else body

def describeOption {α : Type} (describe : α → String) : Option α → String
  | some a => "Some(" ++ describe a ++ ")"
  | none => "None"

/-- The context as a developer wants to see it. -/
def describe (ctx : Context) : String :=
  "Router \x7b uri: " ++ Text.quoted ctx.path
    ++ ", is_page: " ++ (if ctx.isPage then "true" else "false")
    ++ ", template: " ++ describeOption Template.describe ctx.template
    ++ ", status: " ++ describeOption toString ctx.status
    ++ ", lookup: \"<lookup>\" \x7d"

end Context

end Signpost
