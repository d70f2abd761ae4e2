import Signpost.Context.Basic
import Signpost.Rule.Kind

/-!
# Tokens

A token is what a wildcard or a group of a rule took from the path.
-/

namespace Signpost

structure Token where
  /-- The number of the token, from 1 on. -/
  index : Nat
  /-- What was taken; nothing rather than an empty text. -/
  value : Option String
  /-- Absent for a group that is written out in the rule. -/
  kind : Option Kind
  /-- The columns of the row that the last check found; blank ones if it found none. -/
  columns : Option (Names (Option String)) := none
  deriving DecidableEq, Repr, Inhabited

namespace Token

def new (index : Nat) (value : Option String) (kind : Option Kind) : Token where
  index
  value := value.filter (!·.isEmpty)
  kind

def setValue (t : Token) (value : String) : Token :=
  { t with value := (some value).filter (!·.isEmpty) }

def isEmpty (t : Token) : Bool := t.value.isNone

def text (t : Token) : String := t.value.getD ""

instance : ToString Token := ⟨text⟩

/-- A column of the row that the last check found. -/
def column? (t : Token) (column : String) : Option String :=
  (t.columns.bind (·.get? column)).join

/-- The name of the global with a column of the token's row. -/
def columnGlobal (t : Token) (column : String) : String :=
  Context.globalName t.index ++ "_" ++ column

/-- Puts the text of every token into its global. -/
def exportAll (ts : List Token) (ctx : Context) : Context :=
  ts.foldl (fun ctx t => ctx.setGlobal (Context.globalName t.index) t.text) ctx

/-! ## Placeholders -/

def placeholder (t : Token) : String := "$" ++ toString t.index

/-- Replaces `$N` by the text of token `N`. Larger numbers go first, so that `$1` does not take the
start of `$10`. -/
def substitute (ts : List Token) (text : String) : String :=
  (ts.mergeSort fun a b => decide (b.index ≤ a.index)).foldl
    (fun text t => Text.replace t.placeholder t.text text) text

def substituteAll (ts : List Token) (t : Template) : Template :=
  ⟨substitute ts t.group, substitute ts t.name⟩

end Token

end Signpost
