import Signpost.Handler
import Signpost.Rule.Pattern

/-!
# Route tables

The rules of a site in the order of their declaration, each with its destination, and the settings
that rules are compiled under.
-/

namespace Signpost

/-- Where a rule sends the requests that it matches. -/
inductive Destination
  | template (t : Template)
  /-- A handler sets the template itself, or answers with a body. -/
  | handler (h : Handler (Option String))

instance : Inhabited Destination := ⟨.template default⟩

/-- The destination that a text names, which is a template. -/
def Destination.ofText (descriptor : String) : Destination := .template (.read descriptor)

structure Route where
  /-- The rule as it was declared. -/
  rule : String
  pattern : Pattern
  destination : Destination
  deriving Inhabited

structure RouteTable where
  routes : List Route := []
  /-- The handler that runs before any rule is tried. -/
  before : Option (Handler Unit) := none
  pages : Pages := .empty
  setting : CategorySetting := {}
  /-- The character set of emitted pages, if one was set. -/
  charset? : Option String := none
  deriving Inhabited

namespace RouteTable

def empty : RouteTable := {}

def withPages (pages : Pages) : RouteTable := { pages }

def charset (table : RouteTable) : String := table.charset?.getD "UTF-8"

def size (table : RouteTable) : Nat := table.routes.length

def isEmpty (table : RouteTable) : Bool := table.routes.isEmpty

/-! ## Building -/

def compile (pages : Pages) (setting : CategorySetting) (rule : String) : Except Error Pattern :=
  (Pattern.compile rule pages setting).mapError (.pattern rule)

/-- Adds a rule behind the others. -/
def add (table : RouteTable) (rule : String) (destination : Destination) :
    Except Error RouteTable := do
  let pattern ← compile table.pages table.setting rule
  return { table with routes := table.routes ++ [{ rule, pattern, destination }] }

/-- Changes how `:category` is expanded, and compiles the rules anew. -/
def withSetting (table : RouteTable) (setting : CategorySetting) : Except Error RouteTable := do
  let routes ← table.routes.mapM fun route => do
    let pattern ← compile table.pages setting route.rule
    return { route with pattern }
  return { table with routes, setting }

def withCharset (table : RouteTable) (charset : String) : RouteTable :=
  { table with charset? := some charset }

def withBefore (table : RouteTable) (before : Handler Unit) : RouteTable :=
  { table with before := some before }

end RouteTable

end Signpost
