import Signpost.Store.Basic
import Signpost.Text

/-!
# A store held in memory

Lists of rows. Rows may have more columns than the answers show, and filters may ask for those too.
-/

namespace Signpost

structure MemoryStore where
  entries : List Row := []
  categories : List Row := []
  members : List Row := []
  channels : List Row := []
  deriving DecidableEq, Repr, Inhabited

namespace MemoryStore

/-- A row cut down to some columns; a column that it lacks is blank. -/
def project (columns : List String) (row : Row) : Row :=
  .ofList (columns.map fun c => (c, (row.get? c).getD ""))

/-- The rows that a filter accepts, in their order. -/
def select (columns : List String) (rows : List Row) (filter : Where) : List Row :=
  (rows.filter filter.accepts).map (project columns)

/-- A constraint on `channel` is one on the column with the channel's name. -/
def nameChannel (filter : Where) : Where :=
  match filter.take "channel" with
  | (some c, rest) => rest.insert "channel_name" c
  | (none, _) => filter

/-- The groups that a channel row lists, between bars. -/
def groupsOf (row : Row) : List String :=
  match row.get? "cat_group" with
  | some groups => (Text.split '|' groups).filter (!·.isEmpty)
  | none => []

def findEntries (m : MemoryStore) (filter : Where) : List Row :=
  select entryColumns m.entries (nameChannel filter)

def findCategories (m : MemoryStore) (filter : Where) : List Row :=
  select categoryColumns m.categories filter

def findMembers (m : MemoryStore) (filter : Where) : List Row :=
  select memberColumns m.members filter

def findCategoryGroups (m : MemoryStore) (filter : Where) : List String :=
  (m.channels.filter filter.accepts).flatMap groupsOf

def toStore (m : MemoryStore) : Store where
  entries w := .ok (m.findEntries w)
  categories w := .ok (m.findCategories w)
  members w := .ok (m.findMembers w)
  categoryGroups w := .ok (m.findCategoryGroups w)

end MemoryStore

end Signpost
