import Mathlib.Data.List.Induction
import Signpost.Dict

/-!
# Dictionaries that are written to

What is found after a row of insertions: a key that none of them names keeps its value, and one that
they all give the same value has it.
-/

namespace Signpost.Dict

variable {κ α β : Type} [Ord κ] {d e f : Dict κ α} {k l : κ} {v : α}

/-- Every key of the first dictionary is one of the second. -/
structure KeysWithin (d e : Dict κ α) : Prop where
  contains : ∀ k, d.contains k = true → e.contains k = true

theorem KeysWithin.refl (d : Dict κ α) : d.KeysWithin d := ⟨fun _ h => h⟩

theorem KeysWithin.trans (h : d.KeysWithin e) (h' : e.KeysWithin f) : d.KeysWithin f :=
  ⟨fun k hk => h'.contains k (h.contains k hk)⟩

variable [Std.LawfulEqOrd κ]

theorem mem_of_get?_eq_some (h : d.get? k = some v) : (k, v) ∈ d.entries := by
  rw [get?] at h
  generalize d.entries = es at h ⊢
  induction es with
  | nil => cases h
  | cons e es ih =>
    rw [find] at h
    split at h
    · next heq =>
      cases h
      rw [Std.compare_eq_iff_eq.1 heq]
      exact List.mem_cons_self
    · exact List.mem_cons_of_mem e (ih h)

variable [Std.TransOrd κ] {key : β → κ} {value : β → α} {es : List β}

theorem get?_insert_ne (h : l ≠ k) (d : Dict κ α) (v : α) : (d.insert k v).get? l = d.get? l :=
  get?_insert_of_ne d (fun heq => h (Std.compare_eq_iff_eq.1 heq)) v

theorem get?_eq_some_of_mem (h : (k, v) ∈ d.entries) : d.get? k = some v := by
  obtain ⟨es, hes⟩ := d
  change find k es = some v
  induction es with
  | nil => cases h
  | cons e es ih =>
    rw [List.pairwise_cons] at hes
    rcases List.mem_cons.1 h with rfl | h
    · simp [find]
    · have hlater : compare k e.1 ≠ .eq := by
        intro heq
        have hlt : compare e.1 k = .lt := hes.1 _ h
        rw [Std.OrientedCmp.eq_symm heq] at hlt
        cases hlt
      rw [find, if_neg hlater]
      exact ih hes.2 h

theorem erase_eq_self (h : d.get? k = none) : d.erase k = d := by
  refine Dict.ext (List.filter_eq_self.2 fun e he => ?_)
  rw [bne_iff_ne]
  intro heq
  rw [Std.compare_eq_iff_eq.1 heq, get?_eq_some_of_mem (v := e.2) he] at h
  cases h

/-! ## Rows of insertions -/

theorem get?_foldl_insert_ne (h : ∀ e ∈ es, key e ≠ k) (d : Dict κ α) :
    (es.foldl (fun d e => d.insert (key e) (value e)) d).get? k = d.get? k := by
  induction es generalizing d with
  | nil => rfl
  | cons e es ih =>
    rw [List.foldl_cons, ih (fun f hf => h f (List.mem_cons_of_mem e hf))]
    exact get?_insert_ne (h e List.mem_cons_self).symm d _

theorem get?_foldl_insert (hvalue : ∀ e ∈ es, key e = k → value e = v)
    (h : d.get? k = some v ∨ ∃ e ∈ es, key e = k) :
    (es.foldl (fun d e => d.insert (key e) (value e)) d).get? k = some v := by
  induction es generalizing d with
  | nil => simpa using h
  | cons e es ih =>
    rw [List.foldl_cons]
    refine ih (fun f hf => hvalue f (List.mem_cons_of_mem e hf)) ?_
    by_cases hkey : key e = k
    · rw [hkey, hvalue e List.mem_cons_self hkey]
      exact .inl (get?_insert_self ..)
    · rw [get?_insert_ne (Ne.symm hkey)]
      simpa [hkey] using h

/-- Of the entries of a list with the same key the last one counts. -/
theorem get?_ofList_eq_some_iff {es : List (κ × α)} :
    (ofList es).get? k = some v ↔
      ∃ before later, es = before ++ (k, v) :: later ∧ ∀ e ∈ later, e.1 ≠ k := by
  constructor
  · intro h
    induction es using List.reverseRecOn with
    | nil => cases h
    | append_singleton es e ih =>
      rw [ofList, List.foldl_append, List.foldl_cons, List.foldl_nil] at h
      by_cases hkey : e.1 = k
      · obtain ⟨l, w⟩ := e
        obtain rfl : l = k := hkey
        rw [get?_insert_self] at h
        obtain rfl : w = v := Option.some.inj h
        exact ⟨es, [], rfl, fun _ h => nomatch h⟩
      · rw [get?_insert_ne (Ne.symm hkey)] at h
        obtain ⟨before, later, rfl, hlater⟩ := ih h
        refine ⟨before, later ++ [e], by simp, fun f hf => ?_⟩
        rcases List.mem_append.1 hf with hf | hf
        · exact hlater f hf
        · exact List.mem_singleton.1 hf ▸ hkey
  · rintro ⟨before, later, rfl, hlater⟩
    rw [ofList, List.foldl_append, List.foldl_cons, get?_foldl_insert_ne hlater]
    exact get?_insert_self ..

theorem get?_ofList_map (f : κ → α) {ks : List κ} (h : k ∈ ks) :
    (ofList (ks.map fun k => (k, f k))).get? k = some (f k) := by
  refine get?_foldl_insert (fun e he hkey => ?_) (.inr ?_)
  · obtain ⟨l, -, rfl⟩ := List.mem_map.1 he
    exact congrArg f hkey
  · exact ⟨(k, f k), List.mem_map_of_mem h, rfl⟩

theorem get?_ofList_map_ne (f : κ → α) {ks : List κ} (h : k ∉ ks) :
    (ofList (ks.map fun k => (k, f k))).get? k = none := by
  refine (get?_foldl_insert_ne (fun e he hkey => ?_) empty).trans (get?_empty k)
  obtain ⟨l, hl, rfl⟩ := List.mem_map.1 he
  exact h (hkey ▸ hl)

theorem keysWithin_insert (d : Dict κ α) (k : κ) (v : α) : d.KeysWithin (d.insert k v) := by
  refine ⟨fun l hl => ?_⟩
  by_cases hkey : l = k
  · rw [contains, hkey, get?_insert_self]
    rfl
  · rw [contains, get?_insert_ne hkey]
    exact hl

theorem keysWithin_foldl_insert (es : List β) (d : Dict κ α) :
    d.KeysWithin (es.foldl (fun d e => d.insert (key e) (value e)) d) := by
  induction es generalizing d with
  | nil => exact .refl d
  | cons e es ih => exact (keysWithin_insert d (key e) (value e)).trans (ih _)

end Signpost.Dict
