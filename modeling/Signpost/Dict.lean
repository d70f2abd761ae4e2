/-!
# Dictionaries in key order

A dictionary holds its entries as a list with strictly ascending keys. Two dictionaries with the
same entries are therefore equal as values, and every walk over one goes in key order.
-/

namespace Signpost

structure Dict (κ : Type) (α : Type) [Ord κ] where
  entries : List (κ × α)
  ascending : entries.Pairwise fun a b => compare a.1 b.1 = .lt := by exact List.Pairwise.nil
  deriving DecidableEq

namespace Dict

variable {κ α : Type} [Ord κ]

instance [Repr κ] [Repr α] : Repr (Dict κ α) := ⟨fun d n => reprPrec d.entries n⟩

def empty : Dict κ α where
  entries := []

instance : Inhabited (Dict κ α) := ⟨empty⟩
instance : EmptyCollection (Dict κ α) := ⟨empty⟩

def isEmpty (d : Dict κ α) : Bool := d.entries.isEmpty

def size (d : Dict κ α) : Nat := d.entries.length

def keys (d : Dict κ α) : List κ := d.entries.map (·.1)

def values (d : Dict κ α) : List α := d.entries.map (·.2)

/-! ## Entry lists -/

/-- The value at a key of an entry list. -/
def find (k : κ) : List (κ × α) → Option α
  | [] => none
  | e :: es => if compare k e.1 = .eq then some e.2 else find k es

/-- Puts a value at a key, in the place that the order gives it. -/
def place (k : κ) (v : α) : List (κ × α) → List (κ × α)
  | [] => [(k, v)]
  | e :: es =>
    match compare k e.1 with
    | .lt => (k, v) :: e :: es
    | .eq => (k, v) :: es
    | .gt => e :: place k v es

theorem mem_place {k : κ} {v : α} {e : κ × α} {es : List (κ × α)} (h : e ∈ place k v es) :
    e = (k, v) ∨ e ∈ es := by
  induction es with
  | nil => simp_all [place]
  | cons f fs ih =>
    unfold place at h
    split at h <;> grind

theorem ascending_place [Std.TransOrd κ] (k : κ) (v : α) {es : List (κ × α)}
    (h : es.Pairwise fun a b => compare a.1 b.1 = .lt) :
    (place k v es).Pairwise fun a b => compare a.1 b.1 = .lt := by
  induction es with
  | nil => simp [place]
  | cons e es ih =>
    rw [List.pairwise_cons] at h
    unfold place
    split
    · next hlt =>
      refine List.pairwise_cons.2 ⟨fun f hf => ?_, List.pairwise_cons.2 h⟩
      rcases List.mem_cons.1 hf with rfl | hf
      · exact hlt
      · exact Std.TransCmp.lt_trans hlt (h.1 f hf)
    · next heq =>
      refine List.pairwise_cons.2 ⟨fun f hf => ?_, h.2⟩
      exact Std.TransCmp.lt_of_eq_of_lt heq (h.1 f hf)
    · next hgt =>
      refine List.pairwise_cons.2 ⟨fun f hf => ?_, ih h.2⟩
      rcases mem_place hf with rfl | hf
      · exact Std.OrientedCmp.lt_of_gt hgt
      · exact h.1 f hf

theorem ascending_filter (p : κ × α → Bool) {es : List (κ × α)}
    (h : es.Pairwise fun a b => compare a.1 b.1 = .lt) :
    (es.filter p).Pairwise fun a b => compare a.1 b.1 = .lt :=
  h.sublist List.filter_sublist

/-! ## Operations -/

def get? (d : Dict κ α) (k : κ) : Option α := find k d.entries

def contains (d : Dict κ α) (k : κ) : Bool := (d.get? k).isSome

/-- Sets the value at a key, in place of the one there. -/
def insert [Std.TransOrd κ] (d : Dict κ α) (k : κ) (v : α) : Dict κ α :=
  ⟨place k v d.entries, ascending_place k v d.ascending⟩

def erase (d : Dict κ α) (k : κ) : Dict κ α :=
  ⟨d.entries.filter fun e => compare k e.1 != .eq, ascending_filter _ d.ascending⟩

/-- The dictionary of a list of entries; a later entry replaces an earlier one with its key. -/
def ofList [Std.TransOrd κ] (es : List (κ × α)) : Dict κ α :=
  es.foldl (fun d e => d.insert e.1 e.2) empty

/-! ## What is found after an operation -/

theorem ext {d e : Dict κ α} (h : d.entries = e.entries) : d = e := by
  cases d; cases e; simp_all

@[simp] theorem get?_empty (k : κ) : (empty : Dict κ α).get? k = none := rfl

theorem find_place_self [Std.TransOrd κ] (k : κ) (v : α) (es : List (κ × α)) :
    find k (place k v es) = some v := by
  induction es with
  | nil => simp [place, find]
  | cons e es ih => unfold place; split <;> simp_all [find]

theorem find_place_ne [Std.TransOrd κ] {k l : κ} (hne : compare l k ≠ .eq) (v : α)
    (es : List (κ × α)) : find l (place k v es) = find l es := by
  induction es with
  | nil => simp [place, find, hne]
  | cons e es ih =>
    unfold place
    split
    · simp [find, hne]
    · next heq =>
      have : compare l e.1 ≠ .eq := fun h =>
        hne (Std.TransCmp.eq_trans h (Std.OrientedCmp.eq_symm heq))
      simp [find, hne, this]
    · simp [find, ih]

@[simp] theorem get?_insert_self [Std.TransOrd κ] (d : Dict κ α) (k : κ) (v : α) :
    (d.insert k v).get? k = some v :=
  find_place_self k v d.entries

theorem get?_insert_of_ne [Std.TransOrd κ] (d : Dict κ α) {k l : κ} (h : compare l k ≠ .eq)
    (v : α) : (d.insert k v).get? l = d.get? l :=
  find_place_ne h v d.entries

theorem find_filter_self (k : κ) (es : List (κ × α)) :
    find k (es.filter fun e => compare k e.1 != .eq) = none := by
  induction es with
  | nil => rfl
  | cons e es ih =>
    by_cases h : compare k e.1 = .eq
    · simp [h, ih]
    · simp [h, ih, find]

@[simp] theorem get?_erase_self (d : Dict κ α) (k : κ) : (d.erase k).get? k = none :=
  find_filter_self k d.entries

theorem find_filter_ne [Std.TransOrd κ] {k l : κ} (hne : compare l k ≠ .eq) (es : List (κ × α)) :
    find l (es.filter fun e => compare k e.1 != .eq) = find l es := by
  induction es with
  | nil => rfl
  | cons e es ih =>
    by_cases h : compare k e.1 = .eq
    · have : compare l e.1 ≠ .eq := fun hl =>
        hne (Std.TransCmp.eq_trans hl (Std.OrientedCmp.eq_symm h))
      simp [h, ih, find, this]
    · simp [h, ih, find]

theorem get?_erase_of_ne [Std.TransOrd κ] (d : Dict κ α) {k l : κ} (h : compare l k ≠ .eq) :
    (d.erase k).get? l = d.get? l :=
  find_filter_ne h d.entries

end Dict

/-- A dictionary from names to values. -/
abbrev Names (α : Type) := Dict String α

end Signpost
