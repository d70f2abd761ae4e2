import Signpost.Proofs.Rule.Segments
import Signpost.Proofs.Text
import Signpost.Template

/-!
# Descriptors of templates

The text of a template reads as the template again just if both its halves are there. So it is with
what a descriptor reads as, unless the descriptor has no group, or a doubled slash between its group
and what is behind it.
-/

namespace Signpost.Template

open Text

/-- What reading a descriptor promises. -/
structure Recovers (descriptor : String) : Prop where
  again : read (read descriptor).text = read descriptor
  isSet : (∃ c ∈ descriptor.toList, c ≠ '/') → (read descriptor).isSet = true
  /-- A name that is left out is `index`. -/
  index : '/' ∉ (trimSlashes descriptor).toList → (read descriptor).name = "index"

/-- A descriptor with a group, and behind it nothing but slashes, or one slash and a name. -/
def WellFormed (descriptor : String) : Prop :=
  ∃ front group rest, descriptor.toList = front ++ group ++ rest ∧ (∀ c ∈ front, c = '/') ∧
    group ≠ [] ∧ '/' ∉ group ∧
    ((∀ c ∈ rest, c = '/') ∨ ∃ c behind, c ≠ '/' ∧ rest = '/' :: c :: behind)

variable {front group rest behind : List Char} {descriptor : String} {t : Template}

/-! ## The first two segments -/

theorem isSlash_iff {c : Char} : isSlash c = true ↔ c = '/' := by simp [isSlash]

theorem isSlash_eq_false {c : Char} (h : c ≠ '/') : isSlash c = false := by simp [isSlash, h]

theorem read_of_segments {segments : List (List Char)}
    (h : (trim isSlash descriptor.toList).splitOn '/' = group :: segments) :
    read descriptor =
      ⟨String.ofList group, (segments.head?.map String.ofList).getD "index"⟩ := by
  unfold read split trimSlashes
  rw [String.toList_ofList, h]
  cases segments <;> rfl

theorem read_slashes (h : ∀ c ∈ descriptor.toList, c = '/') : read descriptor = ⟨"", "index"⟩ := by
  have hall : ∀ c ∈ descriptor.toList, isSlash c = true := fun c hc => isSlash_iff.2 (h c hc)
  have hsegments : (trim isSlash descriptor.toList).splitOn '/' = [[]] := by
    rw [trim, trimStart, List.dropWhile_eq_nil_iff.2 hall]
    rfl
  exact read_of_segments hsegments

theorem trim_parts (hfront : ∀ c ∈ front, c = '/') (hgroup : group ≠ []) (hslash : '/' ∉ group)
    (rest : List Char) :
    trim isSlash (front ++ group ++ rest) = group ++ trimEnd isSlash rest := by
  have hstart : trimStart isSlash (front ++ (group ++ rest)) = group ++ rest := by
    obtain ⟨c, w, rfl⟩ := List.exists_cons_of_ne_nil hgroup
    have hc : c ≠ '/' := fun h => hslash (by simp [h])
    have hnil : trimStart isSlash front = [] :=
      List.dropWhile_eq_nil_iff.2 fun c hmem => isSlash_iff.2 (hfront c hmem)
    rw [List.cons_append, trimStart_append_cons (isSlash_eq_false hc), hnil, List.nil_append]
  obtain ⟨c, hlast⟩ := Option.ne_none_iff_exists'.1 (mt List.getLast?_eq_none_iff.1 hgroup)
  have hc : c ≠ '/' := fun h => hslash (h ▸ List.mem_of_getLast? hlast)
  rw [trim, List.append_assoc, hstart, trimEnd_append hlast (isSlash_eq_false hc)]

section Parts

variable (htext : descriptor.toList = front ++ group ++ rest) (hfront : ∀ c ∈ front, c = '/')
  (hgroup : group ≠ []) (hslash : '/' ∉ group)

include htext hfront hgroup hslash

theorem read_bare (hrest : ∀ c ∈ rest, c = '/') :
    read descriptor = ⟨String.ofList group, "index"⟩ := by
  have hsegments : (trim isSlash descriptor.toList).splitOn '/' = [group] := by
    rw [htext, trim_parts hfront hgroup hslash,
      trimEnd_eq_nil fun c hmem => isSlash_iff.2 (hrest c hmem), List.append_nil,
      List.splitOn_eq_singleton hslash]
  exact read_of_segments hsegments

theorem read_behind (hrest : trimEnd isSlash rest = '/' :: behind) :
    read descriptor =
      ⟨String.ofList group, ((behind.splitOn '/').head?.map String.ofList).getD "index"⟩ := by
  apply read_of_segments
  rw [htext, trim_parts hfront hgroup hslash, hrest, List.splitOn_append_cons_self,
    List.splitOn_eq_singleton hslash]
  rfl

theorem read_named {c : Char} (hc : c ≠ '/') (hrest : rest = '/' :: c :: behind) :
    ∃ w, read descriptor = ⟨String.ofList group, String.ofList (c :: w)⟩ := by
  have htrim : trimEnd isSlash rest = '/' :: c :: trimEnd isSlash behind := by
    rw [hrest]
    exact trimEnd_append_cons (isSlash_eq_false hc) ['/'] behind
  obtain ⟨w, segments, hsegments⟩ :=
    List.exists_cons_of_ne_nil (List.splitOn_ne_nil '/' (trimEnd isSlash behind))
  refine ⟨w, ?_⟩
  rw [read_behind htext hfront hgroup hslash htrim, List.splitOn_cons_eq_if_modifyHead,
    if_neg (by simpa using hc), hsegments]
  rfl

theorem read_doubled (hbehind : ∃ c ∈ behind, c ≠ '/') (hrest : rest = '/' :: '/' :: behind) :
    read descriptor = ⟨String.ofList group, ""⟩ := by
  obtain ⟨c, hmem, hc⟩ := hbehind
  obtain ⟨before, after, rfl⟩ := List.append_of_mem hmem
  have htrim : trimEnd isSlash rest = '/' :: '/' :: (before ++ c :: trimEnd isSlash after) := by
    rw [hrest]
    exact trimEnd_append_cons (isSlash_eq_false hc) ('/' :: '/' :: before) after
  rw [read_behind htext hfront hgroup hslash htrim, List.splitOn_cons_eq_if_modifyHead]
  rfl

end Parts

/-! ## Templates that are set -/

theorem exists_run (p : Char → Bool) (text : List Char) :
    ∃ run rest, text = run ++ rest ∧ (∀ c ∈ run, p c = true) ∧
      ∀ c behind, rest = c :: behind → p c = false := by
  refine ⟨text.takeWhile p, text.dropWhile p, List.takeWhile_append_dropWhile.symm,
    fun c hc => List.mem_takeWhile_imp hc, fun c behind hrest => ?_⟩
  have hhead := List.head?_dropWhile_not p text
  rwa [hrest] at hhead

theorem exists_parts (h : ∃ c ∈ descriptor.toList, c ≠ '/') :
    ∃ front group rest, descriptor.toList = front ++ group ++ rest ∧ (∀ c ∈ front, c = '/') ∧
      group ≠ [] ∧ '/' ∉ group ∧ ∀ c behind, rest = c :: behind → c = '/' := by
  obtain ⟨front, tail, htext, hfront, htail⟩ := exists_run isSlash descriptor.toList
  obtain ⟨group, rest, rfl, hgroup, hrest⟩ := exists_run (!isSlash ·) tail
  have hslashes : ∀ c ∈ front, c = '/' := fun c hc => isSlash_iff.1 (hfront c hc)
  refine ⟨front, group, rest, by rw [htext, List.append_assoc], hslashes, ?_, ?_, ?_⟩
  · rintro rfl
    obtain ⟨c, hmem, hc⟩ := h
    cases rest with
    | nil => exact hc (hslashes c (by simpa [htext] using hmem))
    | cons d behind =>
      -- The first character behind the slashes at the front is none, so it is in the group.
      simpa [htail d behind rfl] using hrest d behind rfl
  · intro hmem
    simpa [isSlash] using hgroup _ hmem
  · intro c behind hc
    exact isSlash_iff.1 (by simpa using hrest c behind hc)

theorem behind_group (h : ∀ c behind, rest = c :: behind → c = '/') :
    (∀ c ∈ rest, c = '/') ∨ (∃ c behind, c ≠ '/' ∧ rest = '/' :: c :: behind) ∨
      ∃ behind, (∃ c ∈ behind, c ≠ '/') ∧ rest = '/' :: '/' :: behind := by
  by_cases hall : ∀ c ∈ rest, c = '/'
  · exact .inl hall
  · push Not at hall
    obtain ⟨c, hmem, hc⟩ := hall
    cases rest with
    | nil => cases hmem
    | cons d behind =>
      obtain rfl := h d behind rfl
      cases behind with
      | nil => exact absurd (List.mem_singleton.1 hmem) hc
      | cons d behind =>
        by_cases hd : d = '/'
        · subst hd
          exact .inr (.inr ⟨behind, ⟨c, by simpa [hc] using hmem, hc⟩, rfl⟩)
        · exact .inr (.inl ⟨d, behind, hd, rfl⟩)

theorem isSet_read_iff : (read descriptor).isSet = true ↔ WellFormed descriptor := by
  rw [isSet_iff]
  constructor
  · rintro ⟨hgroup, hname⟩
    have hnot : ∃ c ∈ descriptor.toList, c ≠ '/' := by
      by_contra! hall
      rw [read_slashes hall] at hgroup
      exact hgroup rfl
    obtain ⟨front, group, rest, htext, hfront, hne, hslash, hrest⟩ := exists_parts hnot
    refine ⟨front, group, rest, htext, hfront, hne, hslash, ?_⟩
    obtain hall | hone | ⟨behind, hbehind, htwo⟩ := behind_group hrest
    · exact .inl hall
    · exact .inr hone
    · rw [read_doubled htext hfront hne hslash hbehind htwo] at hname
      exact absurd rfl hname
  · rintro ⟨front, group, rest, htext, hfront, hne, hslash, hrest | ⟨c, behind, hc, hrest⟩⟩
    · rw [read_bare htext hfront hne hslash hrest]
      simp [hne]
    · obtain ⟨w, hread⟩ := read_named htext hfront hne hslash hc hrest
      rw [hread]
      simp [hne]

/-! ## Reading the text of a template -/

theorem slash_notMem_read (descriptor : String) :
    '/' ∉ (read descriptor).group.toList ∧ '/' ∉ (read descriptor).name.toList := by
  obtain ⟨group, segments, hsegments⟩ :=
    List.exists_cons_of_ne_nil (List.splitOn_ne_nil '/' (trim isSlash descriptor.toList))
  have hslash : ∀ s ∈ group :: segments, '/' ∉ s := fun s hs => by
    rw [← hsegments] at hs
    exact slash_notMem_segment hs
  rw [read_of_segments hsegments]
  cases segments with
  | nil => simp [hslash group]
  | cons name segments => simp [hslash group, hslash name]

theorem read_text_iff (hgroup : '/' ∉ t.group.toList) (hname : '/' ∉ t.name.toList) :
    read t.text = t ↔ t.isSet = true := by
  have htext : t.text.toList = [] ++ t.group.toList ++ '/' :: t.name.toList := by simp [text]
  have hnil : ∀ {s : String}, s ≠ "" → s.toList ≠ [] := fun hs => mt String.toList_eq_nil_iff.1 hs
  rw [isSet_iff]
  by_cases hg : t.group = ""
  · -- The slash before the name is one at the start, so the name is read as a group.
    refine iff_of_false (fun hread => ?_) fun hset => hset.1 hg
    by_cases hn : t.name = ""
    · rw [read_slashes (by simp [htext, hg, hn])] at hread
      exact absurd (congrArg Template.name hread) (by simp [hn])
    · have hslashed : t.text.toList = ['/'] ++ t.name.toList ++ [] := by simp [htext, hg]
      rw [read_bare hslashed (by simp) (hnil hn) hname (by simp)] at hread
      exact hn (by simpa [hg] using congrArg Template.group hread)
  · by_cases hn : t.name = ""
    · refine iff_of_false (fun hread => ?_) fun hset => hset.2 hn
      have hslashed : t.text.toList = [] ++ t.group.toList ++ ['/'] := by simp [htext, hn]
      rw [read_bare hslashed (by simp) (hnil hg) hgroup (by simp)] at hread
      exact absurd (congrArg Template.name hread) (by simp [hn])
    · refine iff_of_true ?_ ⟨hg, hn⟩
      have hstay : trimEnd isSlash ('/' :: t.name.toList) = '/' :: t.name.toList := by
        apply trimEnd_eq_self
        intro c hc
        rw [List.getLast?_cons_of_ne_nil (hnil hn)] at hc
        exact isSlash_eq_false fun h => hname (h ▸ List.mem_of_getLast? hc)
      rw [read_behind htext (by simp) (hnil hg) hgroup hstay, List.splitOn_eq_singleton hname]
      exact congrArg₂ Template.mk String.ofList_toList String.ofList_toList

theorem name_read (h : '/' ∉ (trimSlashes descriptor).toList) :
    (read descriptor).name = "index" := by
  rw [trimSlashes, String.toList_ofList] at h
  rw [read_of_segments (List.splitOn_eq_singleton h)]
  rfl

/-- A descriptor keeps what reading promises just if it names a template. -/
theorem recovers_iff (descriptor : String) : Recovers descriptor ↔ WellFormed descriptor := by
  obtain ⟨hgroup, hname⟩ := slash_notMem_read descriptor
  constructor
  · intro h
    exact isSet_read_iff.1 ((read_text_iff hgroup hname).1 h.again)
  · intro h
    have hset := isSet_read_iff.2 h
    exact ⟨(read_text_iff hgroup hname).2 hset, fun _ => hset, name_read⟩

/-- A doubled slash leaves the name empty, and neither is the template set nor is it read again. -/
theorem not_recovers_doubled : ¬∀ descriptor, Recovers descriptor := by
  intro h
  have hread : read "a//b" = ⟨"a", ""⟩ := by decide +kernel
  have hset := (h "a//b").isSet ⟨'a', by simp⟩
  rw [hread] at hset
  exact Bool.noConfusion hset

end Signpost.Template
