/-!
# Sets that are searched by a key

A set keeps its members in bins, and a number says in which bin a member lies: its lowest bits lead
to the bin. The members of one bin are searched one by one, the latest first.
-/

namespace Signpost

inductive Bins (α : Type)
  | leaf (members : List α)
  | node (even odd : Bins α)

namespace Bins

variable {α : Type}

def empty : Bins α := leaf []

def members : Bins α → List α
  | leaf members => members
  | node .. => []

@[simp] theorem members_leaf (l : List α) : (leaf l).members = l := rfl

/-- The half of a set for the even keys, or for the odd ones. -/
def half (odd : Bool) : Bins α → Bins α
  | leaf _ => empty
  | node a b => if odd then b else a

/-- The members of the bin that a key leads to, the latest first. -/
def bin : (bits : Nat) → (key : Nat) → Bins α → List α
  | 0, _, s => s.members
  | bits + 1, key, s => bin bits (key / 2) (s.half (key % 2 == 1))

def insert (a : α) : (bits : Nat) → (key : Nat) → Bins α → Bins α
  | 0, _, s => leaf (a :: s.members)
  | bits + 1, key, s =>
    if key % 2 == 1 then node (s.half false) (insert a bits (key / 2) (s.half true))
    else node (insert a bits (key / 2) (s.half false)) (s.half true)

@[simp] theorem bin_empty (bits key : Nat) : (empty : Bins α).bin bits key = [] := by
  induction bits generalizing key with
  | zero => rfl
  | succ bits ih => exact ih _

@[simp] theorem bin_insert_self (a : α) (bits key : Nat) (s : Bins α) :
    (s.insert a bits key).bin bits key = a :: s.bin bits key := by
  induction bits generalizing key s with
  | zero => rfl
  | succ bits ih =>
    by_cases h : (key % 2 == 1) = true
    · simp [insert, bin, half, h, ih]
    · simp [insert, bin, half, h, ih]

theorem mem_bin_insert_of_ne {a b : α} (h : a ≠ b) (bits key other : Nat) (s : Bins α) :
    a ∈ (s.insert b bits other).bin bits key ↔ a ∈ s.bin bits key := by
  induction bits generalizing key other s with
  | zero => simp [insert, bin, h]
  | succ bits ih =>
    by_cases hk : (key % 2 == 1) = true <;> by_cases ho : (other % 2 == 1) = true <;>
      simp [insert, bin, half, hk, ho, ih]

theorem mem_bin_insert (key : α → Nat) (a b : α) (bits : Nat) (s : Bins α) :
    a ∈ (s.insert b bits (key b)).bin bits (key a) ↔ a = b ∨ a ∈ s.bin bits (key a) := by
  by_cases h : a = b
  · subst h; simp
  · simp [mem_bin_insert_of_ne h, h]

end Bins

end Signpost
