import Signpost.Store.Where

/-!
# The data store

The engine asks four questions of the host's data store. No rows is an answer; an error means that
the store itself failed.
-/

namespace Signpost

inductive StoreError
  | unavailable (reason : String)
  | query (reason : String)
  deriving DecidableEq, Repr

def StoreError.message : StoreError → String
  | unavailable reason => "data store unavailable: " ++ reason
  | query reason => "query failed: " ++ reason

/-- What a data store answers. -/
structure Store where
  entries : Where → Except StoreError (List Row)
  categories : Where → Except StoreError (List Row)
  members : Where → Except StoreError (List Row)
  /-- The category groups of the channels that a filter on channels accepts. -/
  categoryGroups : Where → Except StoreError (List String)

inductive Question
  | entries
  | categories
  | members
  | categoryGroups
  deriving DecidableEq, Repr

/-- A question that was put to the store. -/
structure Call where
  question : Question
  filter : Where
  deriving DecidableEq, Repr

/-! ## Columns

The columns that the rows of an answer have. -/

def entryColumns : List String := ["entry_id", "title", "url_title", "channel_id"]

def categoryColumns : List String :=
  ["cat_id", "site_id", "group_id", "parent_id", "cat_name", "cat_url_title", "cat_description",
   "cat_image", "cat_order"]

def memberColumns : List String := ["member_id", "group_id", "email", "username", "screen_name"]

end Signpost
