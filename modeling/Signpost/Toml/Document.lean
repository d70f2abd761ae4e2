import Signpost.Toml.Statement

/-!
# Settings files

The table that the statements of a file make. A header says where the keys after it belong.
-/

namespace Signpost.Toml

/-- The tables that statements have made so far, and the path of the one that is open. -/
structure Document where
  members : Draft.Members := []
  cursor : List String := []
  deriving Inhabited

namespace Document

def step (d : Document) : Statement → Except Fault Document
  | .header k => do return { members := ← Draft.openTable k d.members, cursor := k.full }
  | .element k => do return { members := ← Draft.openElement k d.members, cursor := k.full }
  | .assignment k v => do
    let members ← Draft.within false (fun _ ms => Draft.assign k v ms) d.cursor .header d.members
    return { d with members }

end Document

/-- Takes away the carriage return of every line end that has one. -/
def plainLineEnds : List Char → List Char
  | [] => []
  | '\r' :: '\n' :: cs => '\n' :: plainLineEnds cs
  | c :: cs => c :: plainLineEnds cs

/-- The text without a byte order mark at its front. -/
def dropMark : List Char → List Char
  | '\uFEFF' :: cs => cs
  | cs => cs

/-- The members of the table that a file holds. -/
def read (source : String) : Except Fault (List (String × Value)) := do
  let cs := plainLineEnds (dropMark source.toList)
  let (statements, _) ← (Reader.statements (cs.length + 1)).run cs
  let d ← statements.foldlM Document.step {}
  return Draft.toMembers d.members

end Signpost.Toml
