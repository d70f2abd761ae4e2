/-!
# Segments

The segments of a path are what stands between its slashes.
-/

namespace Signpost

/-- Segments in a row, each behind a slash. -/
def behindSlashes (segments : List (List Char)) : List Char := segments.flatMap ('/' :: ·)

/-- Segments in a row, each before a slash. -/
def beforeSlashes (segments : List (List Char)) : List Char := segments.flatMap (· ++ ['/'])

variable {w u : List Char} {block rest : List (List Char)}

theorem slash_notMem_segment {s : List Char} (h : s ∈ w.splitOn '/') : '/' ∉ s := by
  induction w generalizing s with
  | nil =>
    obtain rfl := List.mem_singleton.1 h
    simp
  | cons c w ih =>
    rw [List.splitOn_cons_eq_if_modifyHead] at h
    split at h
    · rcases List.mem_cons.1 h with rfl | h
      · simp
      · exact ih h
    · rename_i hc
      obtain ⟨t, ts, hts⟩ := List.exists_cons_of_ne_nil (List.splitOn_ne_nil '/' w)
      rw [hts] at ih h
      rcases List.mem_cons.1 h with rfl | h
      · have hne : '/' ≠ c := fun hslash => hc (beq_iff_eq.2 hslash.symm)
        simp [hne, ih List.mem_cons_self]
      · exact ih (List.mem_cons_of_mem _ h)

theorem intercalate_cons (s : List Char) (rest : List (List Char)) :
    ['/'].intercalate (s :: rest) = s ++ behindSlashes rest := by
  induction rest generalizing s with
  | nil => simp [behindSlashes]
  | cons t rest ih =>
    rw [List.intercalate_cons_cons, ih t]
    simp [behindSlashes]

theorem intercalate_append (hblock : block ≠ []) (rest : List (List Char)) :
    ['/'].intercalate (block ++ rest) = ['/'].intercalate block ++ behindSlashes rest := by
  obtain ⟨s, block, rfl⟩ := List.exists_cons_of_ne_nil hblock
  rw [List.cons_append, intercalate_cons, intercalate_cons, List.append_assoc]
  simp [behindSlashes]

theorem behindSlashes_append (block rest : List (List Char)) :
    behindSlashes (block ++ rest) = behindSlashes block ++ behindSlashes rest :=
  List.flatMap_append

theorem behindSlashes_singleton (s : List Char) : behindSlashes [s] = '/' :: s := by
  simp [behindSlashes]

theorem behindSlashes_eq (hblock : block ≠ []) :
    behindSlashes block = '/' :: ['/'].intercalate block := by
  obtain ⟨s, block, rfl⟩ := List.exists_cons_of_ne_nil hblock
  rw [intercalate_cons]
  rfl

theorem behindSlashes_splitOn (w : List Char) : behindSlashes (w.splitOn '/') = '/' :: w := by
  rw [behindSlashes_eq (List.splitOn_ne_nil _ _), List.intercalate_splitOn]

theorem cons_beforeSlashes (segments : List (List Char)) :
    '/' :: beforeSlashes segments = behindSlashes segments ++ ['/'] := by
  induction segments with
  | nil => rfl
  | cons s segments ih =>
    rw [beforeSlashes, List.flatMap_cons, List.append_assoc, List.singleton_append,
      ← beforeSlashes, ih, behindSlashes, behindSlashes, List.flatMap_cons]
    simp

theorem beforeSlashes_splitOn (w : List Char) : beforeSlashes (w.splitOn '/') = w ++ ['/'] := by
  have hslash := cons_beforeSlashes (w.splitOn '/')
  rw [behindSlashes_splitOn] at hslash
  exact (List.cons.inj hslash).2

theorem intercalate_append_of_ne_nil (hrest : rest ≠ []) (block : List (List Char)) :
    ['/'].intercalate (block ++ rest) = beforeSlashes block ++ ['/'].intercalate rest := by
  have hslash : '/' :: ['/'].intercalate (block ++ rest) =
      '/' :: (beforeSlashes block ++ ['/'].intercalate rest) := by
    rw [← behindSlashes_eq (List.append_ne_nil_of_right_ne_nil block hrest), behindSlashes_append,
      behindSlashes_eq hrest, ← List.cons_append, cons_beforeSlashes]
    simp
  exact (List.cons.inj hslash).2

theorem splitOn_append_behindSlashes (h : ∀ s ∈ rest, '/' ∉ s) (w : List Char) :
    (w ++ behindSlashes rest).splitOn '/' = w.splitOn '/' ++ rest := by
  induction rest generalizing w with
  | nil => simp [behindSlashes]
  | cons s rest ih =>
    obtain ⟨hs, hrest⟩ := List.forall_mem_cons.1 h
    have htext : behindSlashes (s :: rest) = '/' :: (s ++ behindSlashes rest) := rfl
    rw [htext, List.splitOn_append_cons_self, ih hrest s, List.splitOn_eq_singleton hs]
    rfl

theorem exists_of_splitOn_eq_append (hblock : block ≠ []) (h : w.splitOn '/' = block ++ rest) :
    ∃ u, w = u ++ behindSlashes rest ∧ u.splitOn '/' = block := by
  have hsegments : ∀ s ∈ block, '/' ∉ s := fun s hs =>
    slash_notMem_segment (h ▸ List.mem_append_left rest hs)
  refine ⟨['/'].intercalate block, ?_, List.splitOn_intercalate '/' hsegments hblock⟩
  rw [← intercalate_append hblock, ← h, List.intercalate_splitOn]

theorem splitOn_eq_iff (hblock : block ≠ []) :
    w.splitOn '/' = block ↔ (∀ s ∈ block, '/' ∉ s) ∧ w = ['/'].intercalate block := by
  constructor
  · rintro rfl
    exact ⟨fun s => slash_notMem_segment, (List.intercalate_splitOn '/').symm⟩
  · rintro ⟨h, rfl⟩
    exact List.splitOn_intercalate '/' h hblock

theorem splitOn_inj {u w : List Char} (h : w.splitOn '/' = u.splitOn '/') : w = u := by
  have hw : ['/'].intercalate (w.splitOn '/') = w := List.intercalate_splitOn '/'
  rw [← hw, h, List.intercalate_splitOn]

theorem mem_segment_of_mem {c : Char} (h : c ∈ w) : c = '/' ∨ ∃ s ∈ w.splitOn '/', c ∈ s := by
  have hslashed : c ∈ behindSlashes (w.splitOn '/') := by
    rw [behindSlashes_splitOn]
    exact List.mem_cons_of_mem _ h
  obtain ⟨s, hs, hc⟩ := List.mem_flatMap.1 hslashed
  rcases List.mem_cons.1 hc with hc | hc
  · exact .inl hc
  · exact .inr ⟨s, hs, hc⟩

end Signpost
