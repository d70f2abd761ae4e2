import Signpost.Proofs.Dict
import Signpost.Store.Memory

/-!
# What filters accept

A filter accepts the rows that meet its constraint on each of its columns. A constraint that is set
takes the place of the one that its column had, so only the other constraints of the filter are left
beside it.
-/

namespace Signpost

namespace Where

variable {w w' : Where} {row : Row} {column other : String} {c : Constraint}

theorem get?_insert_self (w : Where) (column : String) (c : Constraint) :
    (w.insert column c).get? column = some c :=
  Dict.get?_insert_self ..

theorem get?_insert_ne (h : other ≠ column) (w : Where) (c : Constraint) :
    (w.insert column c).get? other = w.get? other :=
  Dict.get?_insert_ne h ..

theorem get?_erase_self (w : Where) (column : String) : (w.erase column).get? column = none :=
  Dict.get?_erase_self ..

theorem get?_erase_ne (h : other ≠ column) (w : Where) :
    (w.erase column).get? other = w.get? other :=
  Dict.get?_erase_of_ne _ fun heq => h (Std.compare_eq_iff_eq.1 heq)

theorem get?_insert (w : Where) (column other : String) (c : Constraint) :
    (w.insert column c).get? other = if other = column then some c else w.get? other := by
  split
  · next h => rw [h, get?_insert_self]
  · next h => exact get?_insert_ne h w c

theorem get?_erase (w : Where) (column other : String) :
    (w.erase column).get? other = if other = column then none else w.get? other := by
  split
  · next h => rw [h, get?_erase_self]
  · next h => exact get?_erase_ne h w

theorem contains_eq (w : Where) (column : String) : w.contains column = (w.get? column).isSome :=
  rfl

theorem isEmpty_iff : w.isEmpty = true ↔ ∀ column, w.get? column = none := by
  refine List.isEmpty_iff.trans ⟨fun h column => ?_, fun h => ?_⟩
  · rw [get?, Dict.get?, h]
    rfl
  · refine List.eq_nil_iff_forall_not_mem.2 fun e he => ?_
    have hsome := Dict.get?_eq_some_of_mem he
    rw [← get?, h e.1] at hsome
    cases hsome

/-- A filter with a constraint on one more column, if there is one. -/
def adding (w : Where) (column : String) : Option Constraint → Where
  | some c => w.insert column c
  | none => w

theorem get?_adding (w : Where) (column other : String) (c : Option Constraint) :
    (w.adding column c).get? other =
      if other = column then c.or (w.get? other) else w.get? other := by
  cases c with
  | none => simp [adding]
  | some c => rw [adding, get?_insert, Option.some_or]

theorem erase_eq_self (h : w.get? column = none) : w.erase column = w :=
  congrArg Where.mk (Dict.erase_eq_self h)

theorem all_iff (w : Where) (p : String → Constraint → Bool) :
    (w.columns.entries.all fun e => p e.1 e.2) = true ↔
      ∀ column c, w.get? column = some c → p column c = true := by
  rw [List.all_eq_true]
  exact ⟨fun h _ _ hc => h _ (Dict.mem_of_get?_eq_some hc),
    fun h e he => h e.1 e.2 (Dict.get?_eq_some_of_mem he)⟩

theorem accepts_iff : w.accepts row = true ↔
    ∀ column c, w.get? column = some c → (row.get? column).any c.accepts = true :=
  w.all_iff fun column c => (row.get? column).any c.accepts

theorem accepts_iff_erase (h : ∀ other, other ≠ column → w'.get? other = w.get? other) :
    w'.accepts row = true ↔
      (∀ c, w'.get? column = some c → (row.get? column).any c.accepts = true) ∧
        (w.erase column).accepts row = true := by
  rw [accepts_iff, accepts_iff]
  constructor
  · intro hall
    refine ⟨hall column, fun other c hc => ?_⟩
    by_cases hother : other = column
    · rw [hother, get?_erase_self] at hc
      cases hc
    · rw [get?_erase_ne hother] at hc
      exact hall other c ((h other hother).trans hc)
  · rintro ⟨hcolumn, hothers⟩ other c hc
    by_cases hother : other = column
    · subst hother
      exact hcolumn c hc
    · refine hothers other c ?_
      rw [get?_erase_ne hother, ← h other hother, hc]

theorem accepts_insert (w : Where) (column : String) (c : Constraint) (row : Row) :
    (w.insert column c).accepts row =
      ((row.get? column).any c.accepts && (w.erase column).accepts row) := by
  rw [Bool.eq_iff_iff, Bool.and_eq_true, accepts_iff_erase fun other h => get?_insert_ne h w c]
  simp [get?_insert_self]

end Where

namespace MemoryStore

theorem isEmpty_select (columns : List String) (rows : List Row) (filter : Where) :
    (select columns rows filter).isEmpty = !rows.any filter.accepts := by
  rw [select, List.isEmpty_map]
  induction rows with
  | nil => rfl
  | cons row rows ih => cases h : filter.accepts row <;> simp [h, ih]

theorem nameChannel_eq_self {filter : Where} (h : filter.get? "channel" = none) :
    nameChannel filter = filter := by
  rw [nameChannel, Where.take, h]

end MemoryStore

end Signpost
