import Signpost.Text
import Signpost.Text.Quoted

/-!
# Templates

A template is named by a group and a name in the group, written `group/name`.
-/

namespace Signpost

structure Template where
  group : String
  name : String
  deriving DecidableEq, Repr, Inhabited

namespace Template

/-- Reads `group/name`. Slashes at the ends and further segments do not count, and the name is
`index` if it is left out. -/
def read (descriptor : String) : Template :=
  match Text.split '/' (Text.trimSlashes descriptor) with
  | [] => ⟨"", "index"⟩
  | [group] => ⟨group, "index"⟩
  | group :: name :: _ => ⟨group, name⟩

/-- Whether both the group and the name are there. -/
def isSet (t : Template) : Bool := !t.group.isEmpty && !t.name.isEmpty

theorem isSet_iff {t : Template} : t.isSet = true ↔ t.group ≠ "" ∧ t.name ≠ "" := by simp [isSet]

def text (t : Template) : String := t.group ++ "/" ++ t.name

instance : ToString Template := ⟨text⟩

/-- The template as a developer wants to see it. -/
def describe (t : Template) : String :=
  "TemplateRef \x7b group: " ++ Text.quoted t.group ++ ", name: " ++ Text.quoted t.name ++ " \x7d"

end Template

end Signpost
