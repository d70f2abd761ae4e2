import Mathlib.Data.List.Basic
import Signpost.Proofs.Except
import Signpost.Token.Capture

/-!
# Tokens of captures

The tokens of a match come in blocks, one for each capture in order, and are numbered through from
block to block. The texts of a block with slashes between them are what the capture took, so nothing
of it is lost and nothing is taken twice.
-/

namespace Signpost.Token

variable {kind : Option Kind} {captured : Option String} {n : Nat} {t : Token} {ts : List Token}
  {parts : List (Option Kind × Option String)} {rows : List (List (Option Kind × Option String))}

/-! ## Numbering -/

/-- Tokens that are numbered from behind `n` on. -/
def numberFrom (n : Nat) (parts : List (Option Kind × Option String)) : List Token :=
  (parts.zipIdx n).map fun part => .new (part.2 + 1) part.1.2 part.1.1

/-- Rows of tokens that are numbered through from row to row. -/
def numberRows : (n : Nat) → List (List (Option Kind × Option String)) → List (List Token)
  | _, [] => []
  | n, parts :: rows => numberFrom n parts :: numberRows (n + parts.length) rows

theorem numberFrom_cons (n : Nat) (part : Option Kind × Option String)
    (parts : List (Option Kind × Option String)) :
    numberFrom n (part :: parts) = .new (n + 1) part.2 part.1 :: numberFrom (n + 1) parts := by
  rw [numberFrom, List.zipIdx_cons, List.map_cons]
  rfl

theorem numberFrom_append (n : Nat) (parts parts' : List (Option Kind × Option String)) :
    numberFrom n (parts ++ parts') =
      numberFrom n parts ++ numberFrom (n + parts.length) parts' := by
  rw [numberFrom, List.zipIdx_append, List.map_append]
  rfl

theorem flatten_numberRows (n : Nat) (rows : List (List (Option Kind × Option String))) :
    (numberRows n rows).flatten = numberFrom n rows.flatten := by
  induction rows generalizing n with
  | nil => rfl
  | cons parts rows ih =>
    rw [numberRows, List.flatten_cons, ih, List.flatten_cons, numberFrom_append]

theorem length_numberRows (n : Nat) (rows : List (List (Option Kind × Option String))) :
    (numberRows n rows).length = rows.length := by
  induction rows generalizing n with
  | nil => rfl
  | cons parts rows ih => exact congrArg Nat.succ (ih _)

theorem exists_of_numberRows {i : Nat} (h : (numberRows n rows)[i]? = some ts) :
    ∃ m parts, rows[i]? = some parts ∧ ts = numberFrom m parts := by
  induction rows generalizing n i with
  | nil => cases h
  | cons parts rows ih =>
    cases i with
    | zero => exact ⟨n, parts, rfl, (Option.some.inj h).symm⟩
    | succ i => exact ih h

theorem map_index_numberFrom (n : Nat) (parts : List (Option Kind × Option String)) :
    (numberFrom n parts).map index = List.range' (n + 1) parts.length := by
  induction parts generalizing n with
  | nil => rfl
  | cons part parts ih =>
    rw [numberFrom_cons, List.map_cons, ih, List.length_cons, List.range'_succ]
    rfl

/-! ## Values -/

theorem text_new (index : Nat) (value : Option String) (kind : Option Kind) :
    (new index value kind).text = value.getD "" := by
  cases value with
  | none => rfl
  | some v => by_cases h : v = "" <;> simp [new, text, Option.filter, h]

theorem value_new_ne (index : Nat) (value : Option String) (kind : Option Kind) :
    (new index value kind).value ≠ some "" := by
  intro h
  cases (Option.filter_eq_some_iff.1 h).2

theorem map_text_numberFrom (n : Nat) (parts : List (Option Kind × Option String)) :
    (numberFrom n parts).map text = parts.map fun part => part.2.getD "" := by
  induction parts generalizing n with
  | nil => rfl
  | cons part parts ih => rw [numberFrom_cons, List.map_cons, ih, text_new, List.map_cons]

theorem exists_of_mem_numberFrom (h : t ∈ numberFrom n parts) :
    ∃ i, ∃ part ∈ parts, t = .new i part.2 part.1 := by
  obtain ⟨part, hpart, rfl⟩ := List.mem_map.1 h
  exact ⟨_, part.1, List.fst_mem_of_mem_zipIdx hpart, rfl⟩

theorem value_ne_of_mem_numberFrom (h : t ∈ numberFrom n parts) : t.value ≠ some "" := by
  obtain ⟨i, part, -, rfl⟩ := exists_of_mem_numberFrom h
  exact value_new_ne i part.2 part.1

theorem value_eq_none (ht : t.value ≠ some "") (h : t.text = "") : t.value = none := by
  cases hvalue : t.value with
  | none => rfl
  | some v =>
    rw [text, hvalue] at h
    exact absurd (hvalue.trans (congrArg some h)) ht

/-! ## The block of a capture -/

/-- What a group took, without slashes at its ends; blank if it took no part. -/
def taken (captured : Option String) : String := (captured.map Text.trimSlashes).getD ""

/-- The texts that a capture of some kind is cut into. -/
def pieces (kind : Option Kind) (captured : Option String) : List String :=
  if kind = some .all then Text.split '/' (taken captured) else [taken captured]

theorem getD_trimmed (captured : Option String) : (trimmed captured).getD "" = taken captured := by
  cases captured with
  | none => rfl
  | some s =>
    by_cases h : Text.trimSlashes s = "" <;> simp [trimmed, taken, Option.filter, h]

theorem block_other (h : kind ≠ some .all) (captured : Option String) :
    block kind captured = [(kind, trimmed captured)] := by
  unfold block
  split <;> first | rfl | exact absurd rfl h

theorem block_all (captured : Option String) :
    block (some .all) captured =
        (pieces (some .all) captured).map (fun segment => (some .any, some segment)) ∨
      taken captured = "" ∧ block (some .all) captured = [(some .any, none)] := by
  rw [← getD_trimmed]
  cases h : trimmed captured with
  | none => exact .inr ⟨rfl, by simp [block, h]⟩
  | some rest => exact .inl (by simp [block, pieces, ← getD_trimmed, h])

theorem map_text_block (kind : Option Kind) (captured : Option String) :
    ((block kind captured).map fun part => part.2.getD "") = pieces kind captured := by
  by_cases hall : kind = some .all
  · subst hall
    obtain h | ⟨htaken, h⟩ := block_all captured
    · rw [h, List.map_map]
      exact List.map_id _
    · rw [h, pieces, if_pos rfl, htaken]
      rfl
  · rw [block_other hall, pieces, if_neg hall, ← getD_trimmed]
    rfl

theorem fst_of_mem_block {part : Option Kind × Option String} (h : part ∈ block kind captured) :
    part.1 = if kind = some .all then some .any else kind := by
  by_cases hall : kind = some .all
  · subst hall
    rw [if_pos rfl]
    obtain hsome | ⟨-, hnone⟩ := block_all captured
    · rw [hsome] at h
      obtain ⟨segment, -, rfl⟩ := List.mem_map.1 h
      rfl
    · rw [hnone] at h
      rw [List.mem_singleton.1 h]
  · rw [block_other hall] at h
    rw [List.mem_singleton.1 h, if_neg hall]

theorem intercalate_pieces (kind : Option Kind) (captured : Option String) :
    ['/'].intercalate ((pieces kind captured).map String.toList) = (taken captured).toList := by
  unfold pieces
  split
  · rw [Text.split, List.map_map]
    have hid : String.toList ∘ String.ofList = id := funext fun _ => String.toList_ofList
    rw [hid, List.map_id, List.intercalate_splitOn]
  · simp

/-- The tokens that a capture of some kind comes to. -/
structure IsBlock (kind : Option Kind) (captured : Option String) (ts : List Token) : Prop where
  /-- A capture of kind `all` comes to tokens of kind `any`, and every other one keeps its kind. -/
  kinds : ∀ t ∈ ts, t.kind = if kind = some .all then some .any else kind
  /-- One token for each piece. -/
  texts : ts.map text = pieces kind captured
  joined : ['/'].intercalate (ts.map fun t => t.text.toList) = (taken captured).toList
  /-- Where nothing was taken one token stands for it, without a value. -/
  blank : taken captured = "" → ∃ t, ts = [t] ∧ t.value = none

theorem isBlock_numberFrom (n : Nat) (kind : Option Kind) (captured : Option String) :
    IsBlock kind captured (numberFrom n (block kind captured)) := by
  have htexts : (numberFrom n (block kind captured)).map text = pieces kind captured := by
    rw [map_text_numberFrom, map_text_block]
  refine ⟨fun t ht => ?_, htexts, ?_, fun hblank => ?_⟩
  · obtain ⟨i, part, hpart, rfl⟩ := exists_of_mem_numberFrom ht
    exact fst_of_mem_block hpart
  · rw [← intercalate_pieces kind, ← htexts, List.map_map]
    rfl
  · have hpieces : pieces kind captured = [""] := by
      rw [pieces, hblank]
      exact ite_self _
    rw [hpieces] at htexts
    obtain ⟨t, ht, htext⟩ := List.map_eq_singleton_iff.1 htexts
    have hmem : t ∈ numberFrom n (block kind captured) := ht ▸ List.mem_singleton.2 rfl
    exact ⟨t, ht, value_eq_none (value_ne_of_mem_numberFrom hmem) htext⟩

/-! ## The tokens of a match -/

/-- The kinds and values of the tokens of each capture. -/
def captureRows (p : Pattern) (captures : List (Option String)) :
    List (List (Option Kind × Option String)) :=
  captures.zipIdx.map fun c => block (p.kind? (c.2 + 1)) c.1

theorem ofCaptures_eq_numberFrom (p : Pattern) (captures : List (Option String)) :
    ofCaptures p captures = numberFrom 0 (captureRows p captures).flatten := rfl

/-- The tokens are the blocks of the captures in order, and are numbered from 1 on. -/
structure InBlocks (p : Pattern) (captures : List (Option String)) (blocks : List (List Token)) :
    Prop where
  lengths : captures.length = p.captureCount ∧ blocks.length = p.captureCount
  tokens : ofCaptures p captures = blocks.flatten
  block : ∀ i captured ts, captures[i]? = some captured → blocks[i]? = some ts →
    IsBlock (p.kind? (i + 1)) captured ts
  numbers : (ofCaptures p captures).map index = List.range' 1 (ofCaptures p captures).length
  values : ∀ t ∈ ofCaptures p captures, t.value ≠ some ""

theorem inBlocks_numberRows {p : Pattern} {captures : List (Option String)}
    (h : captures.length = p.captureCount) :
    InBlocks p captures (numberRows 0 (captureRows p captures)) := by
  refine ⟨⟨h, ?_⟩, ?_, fun i captured ts hcaptured hts => ?_, ?_, fun t ht => ?_⟩
  · rw [length_numberRows, captureRows, List.length_map, List.length_zipIdx, h]
  · rw [flatten_numberRows, ofCaptures_eq_numberFrom]
  · obtain ⟨n, parts, hparts, rfl⟩ := exists_of_numberRows hts
    rw [captureRows, List.getElem?_map, List.getElem?_zipIdx, hcaptured] at hparts
    obtain rfl := Option.some.inj hparts
    rw [Nat.zero_add]
    exact isBlock_numberFrom n _ captured
  · rw [ofCaptures_eq_numberFrom, map_index_numberFrom, numberFrom, List.length_map,
      List.length_zipIdx]
  · exact value_ne_of_mem_numberFrom ht

/-- A path that a pattern matches has captures, and its tokens are the blocks of these. -/
theorem ofCaptures_blocks {p : Pattern} {path : String} (h : p.regex.isMatch path = true) :
    ∃ captures blocks, p.regex.captures? path = some captures ∧ InBlocks p captures blocks := by
  obtain ⟨captures, hcaptures⟩ := Regex.isMatch_iff_captures?.1 h
  exact ⟨captures, _, hcaptures, inBlocks_numberRows (Regex.length_captures? hcaptures)⟩

theorem ofCaptures_blocks_docs : ∃ p, Pattern.compile "docs/:all/(end)?" .empty {} = .ok p ∧
    p.regex.isMatch "docs/a//b/" = true ∧
    ∃ captures blocks, p.regex.captures? "docs/a//b/" = some captures ∧
      InBlocks p captures blocks ∧ captures = [some "/a//b", none] ∧
      ofCaptures p captures = [.new 1 (some "a") (some .any), .new 2 none (some .any),
        .new 3 (some "b") (some .any), .new 4 none none] := by
  have hcompiled : (Pattern.compile "docs/:all/(end)?" .empty {}).toOption.map (fun p =>
      (p.regex.isMatch "docs/a//b/", p.regex.captures? "docs/a//b/", p.kinds)) =
        some (true, some [some "/a//b", none], [some .all, none]) := by
    decide +kernel
  obtain ⟨p, hp, hall⟩ := Option.map_eq_some_iff.1 hcompiled
  obtain ⟨hmatch, hboth⟩ := Prod.mk.inj hall
  obtain ⟨hfound, hkinds⟩ := Prod.mk.inj hboth
  obtain ⟨captures, blocks, hcaptures, hblocks⟩ := ofCaptures_blocks hmatch
  obtain rfl := Option.some.inj (hfound.symm.trans hcaptures)
  refine ⟨p, ok_of_toOption hp, hmatch, _, blocks, hcaptures, hblocks, rfl, ?_⟩
  simp only [ofCaptures, Pattern.kind?, hkinds]
  decide

end Signpost.Token
