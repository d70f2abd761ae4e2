import Signpost.Proofs.Rule.Field

/-!
# Layouts

A plain rule comes to a row of letters and fields. Between anchors it is read into a sequence of
letters and groups, and what the groups capture is told by how the path is cut into the words of the
fields.
-/

namespace Signpost.Regex

/-- A letter that stands for itself, or a field. -/
inductive Atom
  | letter (c : Char)
  | field (f : Field)
  deriving DecidableEq, Repr

abbrev Layout := List Atom

namespace Atom

def lexemes : Atom → List Lexeme
  | letter c => [.char (.single c) 0]
  | field f => f.lexemes

end Atom

namespace Layout

/-- The sequence that a layout is read into, after so many groups. -/
def exprs : Nat → Layout → List Expr
  | _, [] => []
  | n, .letter c :: as => .char (.single c) :: exprs n as
  | n, .field f :: as => .group (n + 1) f.body :: exprs (n + 1) as

/-- The text is cut into the letters and into words of the fields, which are the captures. -/
def Cut : Layout → List Char → (captures : List (List Char)) → Prop
  | [], w, captures => w = [] ∧ captures = []
  | .letter c :: as, w, captures => ∃ rest, w = c :: rest ∧ Cut as rest captures
  | .field f :: as, w, captures =>
    ∃ u rest others, f.takes u ∧ Cut as rest others ∧ w = u ++ rest ∧ captures = u :: others

theorem exprs_letters (n : Nat) (cs : List Char) (as : Layout) :
    exprs n (cs.map .letter ++ as) = (cs.map fun c => .char (.single c)) ++ exprs n as := by
  induction cs with
  | nil => rfl
  | cons c cs ih => exact congrArg (_ :: ·) ih

end Layout

variable {as bs : Layout} {text w : List Char} {i j n : Nat} {m : List Mark}

/-! ## Reading a layout -/

theorem isPart_exprs (n : Nat) (as : Layout) : ∀ e ∈ Layout.exprs n as, e.IsPart := by
  induction as generalizing n with
  | nil => simp [Layout.exprs]
  | cons a as ih =>
    cases a with
    | letter c => exact List.forall_mem_cons.2 ⟨Expr.isPart_char _, ih n⟩
    | field f => exact List.forall_mem_cons.2 ⟨Expr.isPart_group _ _, ih (n + 1)⟩

theorem foldlM_layout (as : Layout) (r : Reading) (hflags : r.flags = {}) :
    ∃ parts count, (as.flatMap Atom.lexemes).foldlM Reading.step r =
        .ok { r with level := { r.level with parts := parts ++ r.level.parts }, count } ∧
      parts.map Part.expr = ((Layout.exprs r.count as).map some).reverse ∧
      ∀ p ∈ parts, p.depth ≤ 6 := by
  induction as generalizing r with
  | nil => exact ⟨[], r.count, rfl, rfl, by simp⟩
  | cons a as ih =>
    have hnext : ∀ (e : Expr) (depth count : Nat), depth ≤ 6 →
        a.lexemes.foldlM Reading.step r = .ok { r.push e depth with count } →
        Layout.exprs r.count (a :: as) = e :: Layout.exprs count as →
        ∃ parts count, ((a :: as).flatMap Atom.lexemes).foldlM Reading.step r =
            .ok { r with level := { r.level with parts := parts ++ r.level.parts }, count } ∧
          parts.map Part.expr = ((Layout.exprs r.count (a :: as)).map some).reverse ∧
          ∀ p ∈ parts, p.depth ≤ 6 := by
      intro e depth count hdepth hstep hexprs
      obtain ⟨parts, total, hrest, hparts, hdepths⟩ := ih { r.push e depth with count } hflags
      refine ⟨parts ++ [⟨some e, depth⟩], total, ?_, ?_, ?_⟩
      · rw [List.flatMap_cons, List.foldlM_append, hstep, ok_bind, hrest]
        simp [Reading.push, Level.push]
      · rw [hexprs]
        simp [hparts]
      · intro p hp
        rcases List.mem_append.1 hp with hp | hp
        · exact hdepths p hp
        · obtain rfl := List.mem_singleton.1 hp
          exact hdepth
    cases a with
    | letter c =>
      refine hnext (.char (.single c)) 0 r.count (Nat.zero_le _) ?_ rfl
      rw [Atom.lexemes, List.foldlM_cons, Reading.step, hflags]
      rfl
    | field f =>
      obtain ⟨depth, hdepth, hfield⟩ := foldlM_field f r hflags
      exact hnext _ depth _ hdepth hfield rfl

theorem ofLexemes_layout (as : Layout) :
    ∃ depth ≤ 7, Nested.ofLexemes (as.flatMap Atom.lexemes) =
      .ok ⟨.ofItems (Layout.exprs 0 as), depth⟩ := by
  obtain ⟨parts, count, hread, hparts, hdepths⟩ := foldlM_layout as {} rfl
  rw [List.append_nil] at hread
  refine ⟨_, depth_whole_le hdepths, ?_⟩
  rw [Nested.ofLexemes, hread, ok_bind, ← whole_parts (isPart_exprs 0 as) hparts]
  rfl

theorem read_layout {body : List Char} (h : lexemes 0 body = .ok (as.flatMap Atom.lexemes)) :
    Expr.read ("^(?:".toList ++ body ++ ")$".toList) =
      if (Expr.ofItems (Layout.exprs 0 as)).anchored.isTooLarge then .error .tooLarge
      else .ok (Expr.ofItems (Layout.exprs 0 as)).anchored := by
  obtain ⟨depth, hdepth, hwhole⟩ := ofLexemes_layout as
  have hshallow : depth + 2 ≤ depthLimit := Nat.le_trans (Nat.add_le_add_right hdepth 2) (by decide)
  have hread := read_anchored h hwhole hshallow
  exact hread

/-! ## Marks of later and earlier groups -/

section Spans

variable {ma mb : List Mark} {number : Nat} {span : Nat × Nat}

theorem span?_append_left (h : (Match.mk text mb).span? number = some span) :
    (Match.mk text (mb ++ ma)).span? number = some span := by
  obtain ⟨stop, hstop, h⟩ := Option.bind_eq_some_iff.1 h
  obtain ⟨start, hstart, h⟩ := Option.bind_eq_some_iff.1 h
  rw [Match.span?, List.find?_append, List.find?_append, hstop, hstart]
  exact h

theorem span?_append_right (hmb : ∀ k ∈ mb, k.number ≠ number) :
    (Match.mk text (mb ++ ma)).span? number = (Match.mk text ma).span? number := by
  have hnone : ∀ p : Mark → Bool, mb.find? (fun k => k.number == number && p k) = none := by
    intro p
    rw [List.find?_eq_none]
    intro k hk
    simp [hmb k hk]
  simp only [Match.span?, List.find?_append, hnone, Option.none_or]

end Spans

/-! ## Matching a layout -/

/-- The marks are of groups after the first so many, and the groups took these captures. -/
structure Records (text : List Char) (n : Nat) (m : List Mark) (captures : List (List Char)) :
    Prop where
  later : ∀ k ∈ m, n < k.number
  took : ∀ q u, captures[q]? = some u →
    (Match.mk text m).group? (n + q + 1) = some (String.ofList u)

theorem cut_of_takesAll (h : TakesAll text (Layout.exprs n as) i j m) :
    ∃ w captures, Lies text i j w ∧ Layout.Cut as w captures ∧ Records text n m captures := by
  induction as generalizing n i m with
  | nil =>
    obtain ⟨rfl, rfl⟩ := h
    exact ⟨[], [], lies_nil.2 rfl, ⟨rfl, rfl⟩, ⟨by simp, by simp⟩⟩
  | cons a as ih =>
    cases a with
    | letter c =>
      obtain ⟨k, ma, mb, ha, has, rfl⟩ := h
      obtain ⟨rfl, w, rfl, hik⟩ := (spells_letter c).iff.1 ha
      obtain ⟨w, captures, hkj, hcut, hrecords⟩ := ih has
      refine ⟨c :: w, captures, lies_append.2 ⟨k, hik, hkj⟩, ⟨w, rfl, hcut⟩, ?_⟩
      rwa [List.append_nil]
    | field f =>
      obtain ⟨k, ma, mb, ha, has, rfl⟩ := h
      obtain ⟨marks, hbody, rfl⟩ := takes_group.1 ha
      obtain ⟨rfl, u, hu, hik⟩ := (spells_body f).iff.1 hbody
      obtain ⟨w, captures, hkj, hcut, hrecords⟩ := ih has
      refine ⟨u ++ w, u :: captures, lies_append.2 ⟨k, hik, hkj⟩,
        ⟨u, w, captures, hu, hcut, rfl, rfl⟩, ?_, ?_⟩
      · intro mark hmem
        rcases List.mem_append.1 hmem with hmem | hmem
        · exact Nat.lt_of_succ_lt (hrecords.later mark hmem)
        · simp only [List.nil_append, List.mem_cons, List.not_mem_nil, or_false] at hmem
          rcases hmem with rfl | rfl <;> exact Nat.lt_succ_self n
      · intro q v hq
        cases q with
        | zero =>
          obtain rfl := Option.some.inj hq
          have hne : ∀ mark ∈ mb, mark.number ≠ n + 0 + 1 := fun mark hmem =>
            Nat.ne_of_gt (hrecords.later mark hmem)
          rw [Match.group?, span?_append_right hne]
          simp [Match.span?, hik.eq_take]
        | succ q =>
          have htook := hrecords.took q v hq
          rw [Match.group?, Option.map_eq_some_iff] at htook
          obtain ⟨span, hspan, htook⟩ := htook
          have hnumber : n + (q + 1) + 1 = n + 1 + q + 1 := by omega
          rw [Match.group?, hnumber, span?_append_left hspan]
          exact congrArg some htook

theorem takesAll_of_cut {captures : List (List Char)} (hlies : Lies text i j w)
    (h : Layout.Cut as w captures) : ∃ m, TakesAll text (Layout.exprs n as) i j m := by
  induction as generalizing n i w captures with
  | nil =>
    obtain ⟨rfl, rfl⟩ := h
    exact ⟨[], lies_nil.1 hlies, rfl⟩
  | cons a as ih =>
    cases a with
    | letter c =>
      obtain ⟨rest, rfl, hcut⟩ := h
      obtain ⟨k, hik, hkj⟩ := (lies_append (w := [c])).1 hlies
      obtain ⟨m, hm⟩ := ih hkj hcut
      exact ⟨_, k, [], m, (spells_letter c).iff.2 ⟨rfl, [c], rfl, hik⟩, hm, rfl⟩
    | field f =>
      obtain ⟨u, rest, others, hu, hcut, rfl, rfl⟩ := h
      obtain ⟨k, hik, hkj⟩ := lies_append.1 hlies
      obtain ⟨m, hm⟩ := ih hkj hcut
      have hbody := (spells_body f).iff.2 ⟨rfl, u, hu, hik⟩
      exact ⟨_, k, _, m, takes_group.2 ⟨[], hbody, rfl⟩, hm, rfl⟩

/-! ## Captures -/

namespace Layout

def fields (as : Layout) : List Field :=
  as.filterMap fun
    | .letter _ => none
    | .field f => some f

end Layout

theorem groups_body (f : Field) : f.body.groups = [] := by
  cases f with
  | letters cs =>
    rw [Field.body, Expr.groups_ofItems, List.flatMap_map]
    simp [Expr.groups]
  | _ => rfl

theorem flatMap_groups_exprs (n : Nat) (as : Layout) :
    (Layout.exprs n as).flatMap Expr.groups = List.range' (n + 1) as.fields.length := by
  induction as generalizing n with
  | nil => rfl
  | cons a as ih =>
    cases a with
    | letter c => simpa [Layout.exprs, Layout.fields, Expr.groups] using ih n
    | field f =>
      have hnext := ih (n + 1)
      simp only [Layout.fields] at hnext
      simp [Layout.exprs, Layout.fields, Expr.groups, groups_body, hnext, List.range'_succ]

theorem groupCount_layout {r : Regex} (hr : r.expr = (Expr.ofItems (Layout.exprs 0 as)).anchored) :
    r.groupCount = as.fields.length := by
  have hgroups : (Expr.ofItems (Layout.exprs 0 as)).anchored.groups =
      List.range' 1 as.fields.length := by
    rw [Expr.anchored, Expr.groups_seq]
    simp [Expr.groups, Expr.groups_ofItems, flatMap_groups_exprs]
  rw [Regex.groupCount, hr]
  refine Expr.groupCount_eq fun m => ?_
  rw [hgroups, List.mem_range'_1]
  omega

theorem Layout.Cut.length_eq {captures : List (List Char)} (h : Layout.Cut as w captures) :
    captures.length = as.fields.length := by
  induction as generalizing w captures with
  | nil =>
    obtain ⟨-, rfl⟩ := h
    rfl
  | cons a as ih =>
    cases a with
    | letter c =>
      obtain ⟨rest, -, hcut⟩ := h
      exact ih hcut
    | field f =>
      obtain ⟨u, rest, others, -, hcut, -, rfl⟩ := h
      exact congrArg Nat.succ (ih hcut)

theorem group?_inside {inside : List Mark} {number : Nat} {taken : String}
    (h : (Match.mk text inside).group? (number + 1) = some taken) :
    (Match.mk text (⟨0, false, j⟩ :: (inside ++ [⟨0, true, i⟩]))).group? (number + 1) =
      some taken := by
  obtain ⟨span, hspan, h⟩ := Option.map_eq_some_iff.1 h
  have hne : ∀ k ∈ [Mark.mk 0 false j], k.number ≠ number + 1 := by simp
  rw [Match.group?, ← List.singleton_append, span?_append_right hne, span?_append_left hspan]
  exact congrArg some h

theorem cut_of_captures? {r : Regex} {path : String} {captures : List (Option String)}
    (hr : r.expr = (Expr.ofItems (Layout.exprs 0 as)).anchored)
    (h : r.captures? path = some captures) :
    ∃ words, Layout.Cut as path.toList words ∧
      captures = words.map fun word => some (String.ofList word) := by
  obtain ⟨⟨t, marks⟩, hm, rfl⟩ := Option.map_eq_some_iff.1 h
  obtain ⟨rfl, i, j, hi, hwhole⟩ := takes_of_match? hm
  obtain ⟨inside, hanchored, rfl⟩ := takes_group.1 hwhole
  rw [hr] at hanchored
  obtain ⟨rfl, rfl, htakes⟩ := (takes_anchored hi).1 hanchored
  obtain ⟨w, words, hlies, hcut, hrecords⟩ := cut_of_takesAll (takes_ofItems.1 htakes)
  obtain rfl := lies_whole.1 hlies
  refine ⟨words, hcut, List.ext_getElem ?_ fun q hq hq' => ?_⟩
  · simp [groupCount_layout hr, hcut.length_eq]
  · have hlt : q < words.length := by simpa using hq'
    have hword : words[q]? = some words[q] := List.getElem?_eq_getElem hlt
    have htook := hrecords.took q _ hword
    rw [Nat.zero_add] at htook
    simpa using group?_inside htook

theorem captures?_of_cut {r : Regex} {path : String} {words : List (List Char)}
    (hr : r.expr = (Expr.ofItems (Layout.exprs 0 as)).anchored)
    (h : Layout.Cut as path.toList words) : ∃ captures, r.captures? path = some captures := by
  obtain ⟨m, hm⟩ := takesAll_of_cut (n := 0) (lies_whole.2 rfl) h
  have htakes := (takes_anchored (Nat.zero_le _)).2 ⟨rfl, rfl, takes_ofItems.2 hm⟩
  rw [← hr] at htakes
  have hmatch : r.isMatch path = true := isMatch_iff.2
    ⟨0, _, _, Nat.zero_le _, takes_group.2 ⟨m, htakes, rfl⟩⟩
  exact isMatch_iff_captures?.1 hmatch

end Signpost.Regex
