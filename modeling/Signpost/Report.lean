import Signpost.Dispatch.Basic

/-!
# Reports

A dispatch as lines for a terminal: the rules that were tried, the outcome, and the globals that
are not blank.
-/

namespace Signpost

/-! ## Colours -/

inductive Colour
  | red
  | green
  | yellow
  | blue
  | cyan
  | gray
  deriving DecidableEq, Repr

namespace Colour

/-- The code that terminals know a colour by. -/
def code : Colour → String
  | red => "31"
  | green => "32"
  | yellow => "33"
  | blue => "34"
  | cyan => "36"
  | gray => "90"

end Colour

/-- How texts are set off. -/
structure Palette where
  coloured : Bool
  deriving DecidableEq, Repr

namespace Palette

def wrap (p : Palette) (code text : String) : String :=
  if p.coloured then "\x1b[" ++ code ++ "m" ++ text ++ "\x1b[0m" else text

def paint (p : Palette) (c : Colour) (text : String) : String := p.wrap c.code text

def bold (p : Palette) (text : String) : String := p.wrap "1" text

def dim (p : Palette) (text : String) : String := p.wrap "2" text

end Palette

namespace Report

variable (p : Palette)

/-- A title, with an empty line before it. -/
def title (text : String) : List String := ["", p.paint .gray ("━━━ " ++ text ++ " ━━━")]

/-- A line of a label and a text. -/
def labelled (label text : String) : String := "  " ++ label ++ " " ++ text

/-! ## Sections -/

def verdict (v : Verdict) : String :=
  match v with
  | .selected | .emitted => p.paint .green ("✓ " ++ v.name)
  | .rejected | .notFound => p.paint .red ("✗ " ++ v.name)
  | .declined => p.paint .yellow ("· " ++ v.name)
  | .noMatch => p.dim ("· " ++ v.name)

def entry (place : Nat) (e : TraceEntry) : List String :=
  ["  " ++ p.paint .gray ("[" ++ toString place ++ "]") ++ " " ++ p.paint .cyan e.rule ++ " "
      ++ p.dim "│" ++ " " ++ verdict p e.verdict,
   "      " ++ p.dim "regex:" ++ " " ++ p.dim e.regex]

def rules (m : Metrics) : List String :=
  if m.trace.isEmpty then [p.dim "  No rules evaluated"]
  else
    (m.trace.zipIdx 1).flatMap (fun (e, place) => entry p place e)
      ++ ["  " ++ toString m.considered ++ " considered, " ++ toString m.matched ++ " matched, "
            ++ toString m.rejected ++ " rejected"]

/-- The response that is emitted, with the start of its body. -/
def response (r : Response) : List String :=
  [labelled (p.dim "emit:")
      (p.paint .green (toString r.status) ++ " " ++ p.dim (r.contentType.getD "-"))]
    ++ r.headers.entries.map (fun (name, value) =>
        "    " ++ p.paint .blue (name ++ ":") ++ " " ++ value)
    ++ (if r.body.isEmpty then [] else ["    " ++ String.ofList (r.body.toList.take 200)])

def outcome (d : Dispatch) : List String :=
  match d.outcome with
  | .template t => [labelled (p.dim "template:") (p.bold (p.paint .green t.text))]
  | .emit r => response p r
  | .notFound => ["  " ++ p.paint .red "404"]
  | .notRoutable =>
    ("  " ++ p.paint .yellow "not routable")
      :: (if d.isPage then ["  " ++ p.dim "path is a reserved page path"] else [])

def tail (label : String) : Option String → List String
  | some text => [labelled (p.dim label) (p.paint .blue text)]
  | none => []

def globals (d : Dispatch) : List String :=
  match d.globals.entries.filter fun (_, value) => !value.isEmpty with
  | [] => [p.dim "  All route globals blank"]
  | entries => entries.map fun (key, value) => labelled (p.paint .blue key) value

/-! ## The whole -/

/-- The lines of a report on the dispatch of a path. -/
def lines (path : String) (d : Dispatch) (m : Metrics) : List String :=
  ["", p.bold (p.paint .cyan ("⚙  Routing: \"" ++ path ++ "\""))]
    ++ title p "Rules" ++ rules p m
    ++ title p "Outcome" ++ outcome p d
    ++ tail p "query string:" d.queryString ++ tail p "virtual page:" d.virtualPage
    ++ title p "Globals" ++ globals p d
    ++ title p "Timing" ++ ["Lookups: " ++ p.paint .blue (toString m.lookups), ""]

def text (path : String) (d : Dispatch) (m : Metrics) : String :=
  String.join ((lines p path d m).map (· ++ "\n"))

end Report

end Signpost
