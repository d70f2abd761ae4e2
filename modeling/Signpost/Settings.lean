import Signpost.RouteTable
import Signpost.Toml.Decode

/-!
# Settings files

A route table without handlers as a file holds it: pages by the texts of their numbers, and rules
with the templates they lead to.
-/

namespace Signpost

structure RouteSetting where
  rule : String
  template : String
  deriving DecidableEq, Repr, Inhabited

structure Settings where
  charset : String := "UTF-8"
  /-- The segment before the value of `:category`. -/
  categoryWord : String := "category"
  /-- Whether `:category` stands for a name, not a number. -/
  categoryByName : Bool := false
  pages : Names String := .empty
  routes : List RouteSetting := []
  deriving DecidableEq, Repr, Inhabited

/-- A rule with its template, as a table or as a list of the two. -/
def RouteSetting.ofValue (v : Toml.Value) : Except Toml.Fault RouteSetting :=
  match v with
  | .array (rule :: template :: _) => do
    return { rule := ← rule.asString, template := ← template.asString }
  | .array _ => .error (.expected "a pattern and a template")
  | v => do
    let ms : Toml.Members ← v.asMembers
    return { rule := ← ms.required "pattern" Toml.Value.asString,
             template := ← ms.required "template" Toml.Value.asString }

namespace Settings

/-- Reads a settings file; what it leaves out has its default. -/
def read (source : String) : Except Toml.Fault Settings := do
  let ms : Toml.Members ← Toml.read source
  let standard : Settings := {}
  return {
    charset := ← ms.field "charset" Toml.Value.asString standard.charset
    categoryWord := ← ms.field "reserved_category_word" Toml.Value.asString standard.categoryWord
    categoryByName := ← ms.field "use_category_name" Toml.Value.asBool standard.categoryByName
    pages := ← ms.field "pages" Toml.Value.asNames standard.pages
    routes := ← ms.field "routes" (Toml.Value.asList RouteSetting.ofValue) standard.routes }

/-- A page with its number, around which white space may stand. -/
def page (key path : String) : Except Error (PageId × String) :=
  match PageId.read? (Text.trim Unicode.isBlank key.toList) with
  | some id => .ok (id, path)
  | none => .error (.pageId key)

/-- The route table that settings describe. Pages are taken in the order of their keys, so that of
two with the same number the later one stays. -/
def toTable (s : Settings) : Except Error RouteTable := do
  let pages ← s.pages.entries.mapM fun (key, path) => page key path
  let table ← (RouteTable.withPages (.ofList pages)).withSetting
    { word := s.categoryWord, byName := s.categoryByName }
  s.routes.foldlM (fun table route => table.add route.rule (.ofText route.template))
    (table.withCharset s.charset)

end Settings

end Signpost
