/-!
# Kinds of wildcards

A wildcard in a rule has a kind: what it may stand for in a path, and whether the data store has
the last word on it.
-/

namespace Signpost

inductive Kind
  | any
  | num
  | year
  | month
  | day
  | pagination
  | all
  | category
  | entryId
  | urlTitle
  | categoryId
  | categoryUrlTitle
  | memberId
  | username
  deriving DecidableEq, Repr, Inhabited

namespace Kind

/-- Every kind, in the order of their flags. -/
def every : List Kind :=
  [any, num, year, month, day, pagination, all, category, entryId, urlTitle, categoryId,
   categoryUrlTitle, memberId, username]

theorem mem_every (k : Kind) : k ∈ every := by cases k <;> decide

/-- The name of a wildcard, which a rule writes after a colon. -/
def name : Kind → String
  | any => "any"
  | num => "num"
  | year => "year"
  | month => "month"
  | day => "day"
  | pagination => "pagination"
  | all => "all"
  | category => "category"
  | entryId => "entry_id"
  | urlTitle => "url_title"
  | categoryId => "category_id"
  | categoryUrlTitle => "category_url_title"
  | memberId => "member_id"
  | username => "username"

instance : ToString Kind := ⟨name⟩

def ofName? (s : String) : Option Kind := every.find? (·.name == s)

theorem ofName?_name (k : Kind) : ofName? k.name = some k := by cases k <;> decide

/-- The place of a kind among all kinds. -/
def position (k : Kind) : Nat := every.idxOf k

/-- Kinds that stand for digits. -/
def isNumeric : Kind → Bool
  | num | year | month | day | entryId | categoryId | memberId => true
  | _ => false

/-- Kinds that the data store has to confirm. -/
def needsStore : Kind → Bool
  | entryId | urlTitle | categoryId | categoryUrlTitle | memberId | username => true
  | _ => false

end Kind

/-! ## Sets of kinds -/

/-- A set of kinds, one bit for each. -/
structure KindSet where
  bits : BitVec 14
  deriving DecidableEq, Repr

namespace KindSet

def empty : KindSet := ⟨0⟩

instance : Inhabited KindSet := ⟨empty⟩

def single (k : Kind) : KindSet := ⟨1 <<< k.position⟩

def union (a b : KindSet) : KindSet := ⟨a.bits ||| b.bits⟩

def intersects (a b : KindSet) : Bool := a.bits &&& b.bits != 0

def contains (s : KindSet) (k : Kind) : Bool := s.intersects (single k)

def ofList (ks : List Kind) : KindSet := ks.foldl (fun s k => s.union (single k)) empty

/-- The kinds that the data store has to confirm. -/
def needingStore : KindSet := ofList (Kind.every.filter Kind.needsStore)

theorem contains_needingStore (k : Kind) : needingStore.contains k = k.needsStore := by
  cases k <;> decide

end KindSet

end Signpost
