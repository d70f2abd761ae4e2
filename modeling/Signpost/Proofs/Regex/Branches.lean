import Signpost.Proofs.Regex.Accepting

/-!
# Choices between words

A choice between words is put together in one of three ways: a single word stays as it is, single
letters become a set, and other words are tried one after the other. It accepts the words in each
of them.
-/

namespace Signpost.Regex

variable {c : Char} {w : List Char} {words : List (List Char)} {e : Expr}

namespace CharSet

theorem codes_single (c : Char) : (single c).codes = [(c.toNat, c.toNat)] := by
  have hcodes : (single c).codes =
      ((if c.toNat < 0xD800 then [(c.toNat, min c.toNat 0xD7FF)] else []) ++
        (if 0xDFFF < c.toNat then [(max c.toNat 0xE000, c.toNat)] else [])) ++ [] := rfl
  have hvalid : c.toNat < 0xD800 ∨ 0xDFFF < c.toNat ∧ c.toNat < 0x110000 := c.valid
  rw [hcodes, List.append_nil]
  rcases hvalid with hlow | ⟨hhigh, -⟩
  · rw [if_pos hlow, if_neg (by omega), List.append_nil, Nat.min_eq_left (by omega)]
  · rw [if_neg (by omega), if_pos hhigh, List.nil_append, Nat.max_eq_left (by omega)]

theorem only?_single (c : Char) : (single c).only? = some c := by
  have hvalid : c.toNat.isValidChar := c.valid
  rw [only?, codes_single]
  exact (if_pos rfl).trans (dif_pos hvalid)

theorem contains_letters {cs : List Char} :
    (ranges (cs.map fun c => (c, c))).contains c = true ↔ c ∈ cs := by
  have hone : ∀ d, (d ≤ c ∧ c ≤ d) ↔ d = c := fun d =>
    ⟨fun h => Char.le_antisymm h.1 h.2, fun h => h ▸ ⟨Char.le_refl _, Char.le_refl _⟩⟩
  simp [contains, hone]

end CharSet

namespace Expr

/-- Takes one letter after the other. -/
def ofWord (w : List Char) : Expr := ofItems (w.map fun c => char (.single c))

theorem isPart_letters (w : List Char) :
    ∀ e ∈ w.map fun c => char (.single c), e.IsPart := by
  intro e he
  obtain ⟨c, -, rfl⟩ := List.mem_map.1 he
  exact isPart_char _

theorem items_ofWord (w : List Char) : (ofWord w).items = w.map fun c => char (.single c) := by
  induction w with
  | nil => rfl
  | cons c w ih =>
    cases w with
    | nil => rfl
    | cons d w => exact congrArg (char (.single c) :: ·) ih

theorem branches_ofWord (w : List Char) : (ofWord w).branches = [ofWord w] :=
  branches_ofItems (isPart_letters w)

theorem flatMap_branches_words (words : List (List Char)) :
    (words.map ofWord).flatMap branches = words.map ofWord := by
  rw [List.flatMap_map]
  simp only [branches_ofWord]
  exact List.map_eq_flatMap.symm

theorem set?_ofWord_isSome : (ofWord w).set?.isSome = true ↔ ∃ c, w = [c] := by
  rcases w with _ | ⟨c, _ | ⟨d, w⟩⟩ <;> simp [ofWord, ofItems, set?]

theorem letter?_ofWord_eq_some : (ofWord w).letter? = some c ↔ w = [c] := by
  rcases w with _ | ⟨d, _ | ⟨d', w⟩⟩
  · simp [ofWord, ofItems, letter?, set?]
  · simp [ofWord, ofItems, letter?, set?, CharSet.only?_single]
  · simp [ofWord, ofItems, letter?, set?]

/-! ## Single letters -/

theorem onAll?_letter?_words {cs : List Char} :
    onAll? letter? (words.map ofWord) = some cs ↔ words = cs.map ([·]) := by
  induction words generalizing cs with
  | nil => cases cs <;> simp [onAll?]
  | cons w words ih =>
    rw [List.map_cons, onAll?]
    constructor
    · intro h
      obtain ⟨c, hc, h⟩ := Option.bind_eq_some_iff.1 h
      obtain ⟨cs', hcs, h⟩ := Option.bind_eq_some_iff.1 h
      obtain rfl := Option.some.inj h
      rw [List.map_cons, letter?_ofWord_eq_some.1 hc, ih.1 hcs]
    · intro h
      cases cs with
      | nil => cases h
      | cons c cs =>
        obtain ⟨hw, hwords⟩ := List.cons.inj h
        rw [letter?_ofWord_eq_some.2 hw, ih.2 hwords]
        rfl

theorem merged_words (h : merged (words.map ofWord) = some e) :
    ∃ cs : List Char, words = cs.map ([·]) ∧ e = char (.ranges (cs.map fun c => (c, c))) := by
  unfold merged at h
  split at h
  · next cs hcs =>
    obtain rfl := Option.some.inj h
    exact ⟨cs, onAll?_letter?_words.1 hcs, rfl⟩
  · next hnone =>
    split at h
    · next sets hletters hsets =>
      -- A word that is a set is a letter, so there is no word.
      cases words with
      | nil => cases hnone
      | cons w words =>
        have hset := isSome_of_onAll? hsets (ofWord w) List.mem_cons_self
        obtain ⟨c, hw⟩ := set?_ofWord_isSome.1 hset
        have hletter := List.filterMap_eq_nil_iff.1 hletters (ofWord w) List.mem_cons_self
        rw [letter?_ofWord_eq_some.2 hw] at hletter
        cases hletter
    · cases h

/-! ## What the words begin with -/

theorem joinLetters_word (h : w ≠ []) :
    joinLetters (w.map fun c => char (.single c)) = [ofWord w] := by
  induction w with
  | nil => exact absurd rfl h
  | cons c w ih =>
    rw [List.map_cons, joinLetters]
    cases w with
    | nil => rfl
    | cons d w =>
      have hbegins : (ofWord (d :: w)).beginsWithLetter = true := by
        cases w <;> simp [ofWord, ofItems, beginsWithLetter, letter?, set?, CharSet.only?_single]
      have hletter : (char (.single c)).letter?.isSome = true := by
        simp [letter?, set?, CharSet.only?_single]
      rw [ih (List.cons_ne_nil d w)]
      simp only [hletter, hbegins, Bool.and_self, if_true]
      rfl

theorem front?_words (h : [] ∉ words) : front? (words.map ofWord) = none := by
  -- The letters of a word are one part, so words have no front in common.
  cases words with
  | nil => rfl
  | cons w words =>
    have hw : w ≠ [] := fun hw => h (hw ▸ List.mem_cons_self)
    have hpart : joinLetters (ofWord w).items = [ofWord w] := by
      rw [items_ofWord, joinLetters_word hw]
    simp [front?, hpart]

/-! ## The choice -/

theorem oneOf_words (h : [] ∉ words) :
    oneOf (words.map ofWord) = (merged (words.map ofWord)).getD (ofBranches (words.map ofWord)) := by
  by_cases hone : ∃ w, words = [w]
  · obtain ⟨w, rfl⟩ := hone
    rw [List.map_singleton, oneOf_singleton (branches_ofWord w)]
    cases hm : merged [ofWord w] with
    | none => rfl
    | some e =>
      have hmerged : merged ([w].map ofWord) = some e := hm
      obtain ⟨cs, hcs, rfl⟩ := merged_words hmerged
      obtain ⟨c, rfl, hw⟩ := List.map_eq_singleton_iff.1 hcs.symm
      rw [← hw]
      rfl
  · have hmany : ∀ e, (words.map ofWord).flatMap branches ≠ [e] := by
      intro e he
      rw [flatMap_branches_words] at he
      obtain ⟨w, rfl, -⟩ := List.map_eq_singleton_iff.1 he
      exact hone ⟨w, rfl⟩
    rw [oneOf_many hmany, flatMap_branches_words, front?_words h]

theorem branches_ofBranches_words (h : words ≠ []) :
    (ofBranches (words.map ofWord)).branches = words.map ofWord := by
  induction words with
  | nil => exact absurd rfl h
  | cons w words ih =>
    cases words with
    | nil => exact branches_ofWord w
    | cons w' words =>
      have hrest := ih (List.cons_ne_nil _ _)
      simp only [List.map_cons, ofBranches, branches, branches_ofWord] at hrest ⊢
      rw [hrest]
      rfl

theorem oneOf_oneOf_words (h : [] ∉ words) :
    oneOf [oneOf (words.map ofWord)] = oneOf (words.map ofWord) := by
  cases hm : merged (words.map ofWord) with
  | some e =>
    obtain ⟨cs, -, rfl⟩ := merged_words hm
    rw [oneOf_words h, hm]
    exact oneOf_singleton rfl
  | none =>
    have hne : words ≠ [] := by
      rintro rfl
      cases hm
    have hbranches : (oneOf (words.map ofWord)).branches = words.map ofWord := by
      rw [oneOf_words h, hm]
      exact branches_ofBranches_words hne
    have hflat : [oneOf (words.map ofWord)].flatMap branches =
        (words.map ofWord).flatMap branches := by
      rw [List.flatMap_singleton, hbranches, flatMap_branches_words]
    rw [oneOf, hflat, ← oneOf]

theorem seq_oneOf_words (h : [] ∉ words) :
    seq [oneOf (words.map ofWord)] = oneOf (words.map ofWord) := by
  rw [oneOf_words h]
  cases hm : merged (words.map ofWord) with
  | some e =>
    obtain ⟨cs, -, rfl⟩ := merged_words hm
    rfl
  | none =>
    rcases words with _ | ⟨w, _ | ⟨w', words⟩⟩
    · rfl
    · have hitems : [ofWord w].flatMap items = w.map fun c => char (.single c) := by
        rw [List.flatMap_singleton, items_ofWord]
      exact congrArg ofItems hitems
    · rfl

end Expr

/-! ## Reading a word -/

/-- The letters of a word, cut one by one. -/
def letterLexemes (w : List Char) : List Lexeme := w.map fun c => .char (.single c) 0

/-- What the letters of a word are read into, the last one first. -/
def wordParts (w : List Char) : List Part := (w.map fun c => ⟨some (.char (.single c)), 0⟩).reverse

theorem foldlM_word (w : List Char) (r : Reading) (hflags : r.flags = {}) :
    (letterLexemes w).foldlM Reading.step r =
      .ok { r with level := { r.level with parts := wordParts w ++ r.level.parts } } := by
  rw [letterLexemes, foldlM_letters, hflags]
  rfl

theorem filterMap_wordParts (w : List Char) :
    (wordParts w).reverse.filterMap Part.expr = w.map fun c => .char (.single c) := by
  rw [wordParts, List.reverse_reverse, List.filterMap_map]
  exact congrFun List.filterMap_eq_map w

theorem depth_of_mem_wordParts {p : Part} (h : p ∈ wordParts w) : p.depth = 0 := by
  obtain ⟨c, -, rfl⟩ := List.mem_map.1 (List.mem_reverse.1 h)
  rfl

/-! ## What a choice accepts -/

theorem accepts_ofWord (w : List Char) : Accepts (.ofWord w) (· = w) := (spells_letters w).accepts

theorem accepts_ofBranches (h : words ≠ []) :
    Accepts (.ofBranches (words.map .ofWord)) (· ∈ words) := by
  induction words with
  | nil => exact absurd rfl h
  | cons w words ih =>
    cases words with
    | nil => exact (accepts_ofWord w).congr fun v => by simp
    | cons w' words =>
      refine ((accepts_ofWord w).alt (ih (List.cons_ne_nil _ _))).congr fun v => ?_
      rw [List.mem_cons (a := v) (b := w)]

theorem accepts_oneOf (h : [] ∉ words) : Accepts (.oneOf (words.map .ofWord)) (· ∈ words) := by
  rw [Expr.oneOf_words h]
  cases hm : Expr.merged (words.map .ofWord) with
  | none =>
    refine accepts_ofBranches ?_
    rintro rfl
    cases hm
  | some e =>
    obtain ⟨cs, rfl, rfl⟩ := Expr.merged_words hm
    refine spells_char.accepts.congr fun v => ?_
    simp only [CharSet.contains_letters, List.mem_map]
    exact ⟨fun ⟨c, hc, hv⟩ => ⟨c, hc, hv.symm⟩, fun ⟨c, hc, hv⟩ => ⟨c, hc, hv.symm⟩⟩

end Signpost.Regex
