import Mathlib.Tactic.Tauto
import Signpost.Proofs.Except
import Signpost.Proofs.Regex.Run

/-!
# The numbers of groups

Putting trees together brings no group in that was not in one of the parts. So the groups of an
expression that was read are among those that its text opens, which are numbered from one on, and a
match marks no other groups.
-/

namespace Signpost.Regex

variable {e : Expr} {es fs : List Expr} {n : Nat}

/-! ## Trees put together -/

namespace Expr

theorem flatMap_groups_items (e : Expr) : e.items.flatMap groups = e.groups := by
  induction e with
  | cat a b iha ihb => rw [items, List.flatMap_append, iha, ihb, groups]
  | _ => simp [items, groups]

theorem groups_ofItems (es : List Expr) : (ofItems es).groups = es.flatMap groups := by
  induction es with
  | nil => rfl
  | cons e es ih =>
    cases es with
    | nil => simp [ofItems]
    | cons f fs => simp only [ofItems, groups, ih, List.flatMap_cons]

theorem groups_seq (es : List Expr) : (seq es).groups = es.flatMap groups := by
  rw [seq, groups_ofItems, List.flatMap_assoc]
  simp only [flatMap_groups_items]

theorem flatMap_groups_branches (e : Expr) : e.branches.flatMap groups = e.groups := by
  induction e with
  | alt a b iha ihb => rw [branches, List.flatMap_append, iha, ihb, groups]
  | _ => simp [branches, groups]

theorem groups_ofBranches (es : List Expr) : (ofBranches es).groups = es.flatMap groups := by
  induction es with
  | nil => rfl
  | cons e es ih =>
    cases es with
    | nil => simp [ofBranches]
    | cons f fs => simp only [ofBranches, groups, ih, List.flatMap_cons]

theorem isSome_of_onAll? {α β : Type} {f : α → Option β} {as : List α} {bs : List β}
    (h : onAll? f as = some bs) : ∀ a ∈ as, (f a).isSome := by
  induction as generalizing bs with
  | nil => simp
  | cons a as ih =>
    obtain ⟨b, hb, h⟩ := Option.bind_eq_some_iff.1 h
    obtain ⟨bs, hbs, -⟩ := Option.bind_eq_some_iff.1 h
    exact List.forall_mem_cons.2 ⟨hb ▸ rfl, ih hbs⟩

theorem groups_of_set? (h : e.set?.isSome) : e.groups = [] := by
  cases e <;> first | rfl | cases h

theorem groups_merged (h : merged es = some e) : e.groups = [] ∧ es.flatMap groups = [] := by
  unfold merged at h
  split at h
  · next letters hletters =>
    cases h
    refine ⟨rfl, List.flatMap_eq_nil_iff.2 fun e he => groups_of_set? ?_⟩
    have hletter := isSome_of_onAll? hletters e he
    rw [letter?, Option.isSome_bind] at hletter
    exact Option.isSome_of_any hletter
  · split at h
    · next sets _ hsets =>
      cases h
      exact ⟨rfl, List.flatMap_eq_nil_iff.2 fun e he =>
        groups_of_set? (isSome_of_onAll? hsets e he)⟩
    · cases h

theorem flatMap_groups_joinLetters (es : List Expr) :
    (joinLetters es).flatMap groups = es.flatMap groups := by
  induction es with
  | nil => rfl
  | cons e es ih =>
    rw [List.flatMap_cons, ← ih, joinLetters]
    split
    · split <;> simp [groups, *]
    · simp [*]

theorem prefix_sharedFront (es fs : List Expr) :
    sharedFront es fs <+: es ∧ sharedFront es fs <+: fs := by
  induction es generalizing fs with
  | nil => exact ⟨List.nil_prefix, List.nil_prefix⟩
  | cons e es ih =>
    cases fs with
    | nil => exact ⟨List.nil_prefix, List.nil_prefix⟩
    | cons f fs =>
      rw [sharedFront]
      split
      · next heq =>
        exact ⟨List.cons_prefix_cons.2 ⟨rfl, (ih fs).1⟩,
          List.cons_prefix_cons.2 ⟨heq, (ih fs).2⟩⟩
      · exact ⟨List.nil_prefix, List.nil_prefix⟩

theorem prefix_foldl_sharedFront (front : List Expr) (others : List (List Expr)) :
    ∀ part ∈ front :: others, others.foldl sharedFront front <+: part := by
  induction others generalizing front with
  | nil => simp
  | cons other others ih =>
    obtain ⟨hfront, hothers⟩ := List.forall_mem_cons.1 (ih (sharedFront front other))
    obtain ⟨hleft, hright⟩ := prefix_sharedFront front other
    exact List.forall_mem_cons.2 ⟨hfront.trans hleft,
      List.forall_mem_cons.2 ⟨hfront.trans hright, hothers⟩⟩

theorem mem_groups_front? {front rests : List Expr} (h : front? es = some (front, rests)) :
    n ∈ front.flatMap groups ++ rests.flatMap groups ↔ n ∈ es.flatMap groups := by
  have hes : n ∈ es.flatMap groups ↔
      n ∈ (es.map fun e => joinLetters e.items).flatMap fun part => part.flatMap groups := by
    rw [List.flatMap_map]
    simp only [flatMap_groups_joinLetters, flatMap_groups_items]
  rw [hes]
  rw [front?] at h
  generalize es.map (fun e => joinLetters e.items) = parts at h
  rcases parts with _ | ⟨first, others⟩
  · cases h
  dsimp only at h
  split at h
  · cases h
  cases h
  have hpart : ∀ part ∈ first :: others, n ∈ part.flatMap groups ↔
      n ∈ (others.foldl sharedFront first).flatMap groups ∨
        n ∈ (seq (part.drop (others.foldl sharedFront first).length)).groups := by
    intro part hmem
    obtain ⟨rest, rfl⟩ := prefix_foldl_sharedFront first others part hmem
    rw [List.drop_left, groups_seq, List.flatMap_append, List.mem_append]
  rw [List.mem_append, List.flatMap_map]
  constructor
  · rintro (hn | hn)
    · exact List.mem_flatMap.2 ⟨first, List.mem_cons_self,
        (hpart first List.mem_cons_self).2 (.inl hn)⟩
    · obtain ⟨part, hmem, hn⟩ := List.mem_flatMap.1 hn
      exact List.mem_flatMap.2 ⟨part, hmem, (hpart part hmem).2 (.inr hn)⟩
  · intro hn
    obtain ⟨part, hmem, hn⟩ := List.mem_flatMap.1 hn
    exact ((hpart part hmem).1 hn).imp_right fun hn => List.mem_flatMap.2 ⟨part, hmem, hn⟩

theorem mem_groups_oneOf (es : List Expr) : n ∈ (oneOf es).groups ↔ n ∈ es.flatMap groups := by
  have hbranches : ∀ fs : List Expr, (fs.flatMap branches).flatMap groups = fs.flatMap groups := by
    intro fs
    rw [List.flatMap_assoc]
    simp only [flatMap_groups_branches]
  rw [oneOf, ← hbranches es]
  split
  · next e he => simp [he]
  · next hne =>
    split
    · next e he =>
      obtain ⟨he, hes⟩ := groups_merged he
      rw [he, hes]
    · split
      · next front rests hfront =>
        have hrests : ((merged (rests.flatMap branches)).getD
            (ofBranches (rests.flatMap branches))).groups = rests.flatMap groups := by
          rw [← hbranches]
          cases hm : merged (rests.flatMap branches) with
          | none => exact groups_ofBranches _
          | some e =>
            obtain ⟨he, hes⟩ := groups_merged hm
            exact he.trans hes.symm
        dsimp only
        rw [groups_seq, List.flatMap_append, List.flatMap_singleton, hrests]
        exact mem_groups_front? hfront
      · rw [groups_ofBranches]

theorem groups_repeated (least : Nat) (most : Option Nat) (greedy : Bool) (e : Expr) :
    (repeated least most greedy e).groups = if most = some 0 then [] else e.groups := by
  have hmost : (if e.takesNothing then (min least 1, some (min 1 (most.getD 1)))
      else (least, most)).2 = some 0 ↔ most = some 0 := by
    split
    · cases most with
      | none => simp
      | some m => simp
    · rfl
  rw [← if_congr hmost rfl rfl]
  unfold repeated
  generalize (if e.takesNothing then (min least 1, some (min 1 (most.getD 1))) else (least, most)) =
    bounds
  dsimp only
  split
  · rfl
  · split <;> rfl

end Expr

/-! ## Counting -/

theorem foldl_max_le {ns : List Nat} {k m : Nat} :
    ns.foldl max k ≤ m ↔ k ≤ m ∧ ∀ n ∈ ns, n ≤ m := by
  induction ns generalizing k with
  | nil => simp
  | cons n ns ih => rw [List.foldl_cons, ih, Nat.max_le, List.forall_mem_cons, and_assoc]

theorem Expr.groupCount_eq (h : ∀ m, m ∈ e.groups ↔ 0 < m ∧ m ≤ n) : e.groupCount = n := by
  refine Nat.le_antisymm (foldl_max_le.2 ⟨Nat.zero_le _, fun m hm => ((h m).1 hm).2⟩) ?_
  rcases Nat.eq_zero_or_pos n with rfl | hn
  · exact Nat.zero_le _
  · exact (foldl_max_le.1 (Nat.le_refl _)).2 n ((h n).2 ⟨hn, Nat.le_refl _⟩)

/-! ## Marks -/

theorem Copies.forall_marks {text : List Char} {i j : Nat} {m : List Mark} {p : Mark → Prop}
    (hcopy : ∀ i j m, Takes text e i j m → ∀ k ∈ m, p k) (h : Copies text e n i j m) :
    ∀ k ∈ m, p k := by
  induction n generalizing i m with
  | zero =>
    obtain ⟨-, rfl⟩ := h
    simp
  | succ n ih =>
    obtain ⟨k, ma, mb, h1, h2, rfl⟩ := h
    intro mark hmem
    rcases List.mem_append.1 hmem with hmem | hmem
    · exact ih h2 mark hmem
    · exact hcopy _ _ _ h1 mark hmem

theorem Takes.number_mem {text : List Char} {i j : Nat} {m : List Mark}
    (h : Takes text e i j m) : ∀ k ∈ m, k.number ∈ e.groups := by
  induction e generalizing i j m with
  | empty =>
    obtain ⟨-, rfl⟩ := takes_empty.1 h
    simp
  | char s =>
    obtain ⟨c, -, -, -, rfl⟩ := takes_char.1 h
    simp
  | look l =>
    obtain ⟨-, -, rfl⟩ := takes_look.1 h
    simp
  | group n e ih =>
    obtain ⟨marks, hbody, rfl⟩ := takes_group.1 h
    intro mark hmem
    simp only [List.mem_cons, List.mem_append, List.mem_nil_iff, or_false] at hmem
    rw [Expr.groups, List.mem_cons]
    rcases hmem with rfl | hmem | rfl
    · exact .inl rfl
    · exact .inr (ih hbody mark hmem)
    · exact .inl rfl
  | cat a b iha ihb =>
    obtain ⟨k, ma, mb, ha, hb, rfl⟩ := takes_cat.1 h
    intro mark hmem
    rw [Expr.groups, List.mem_append]
    exact (List.mem_append.1 hmem).symm.imp (iha ha mark) (ihb hb mark)
  | alt a b iha ihb =>
    intro mark hmem
    rw [Expr.groups, List.mem_append]
    exact (takes_alt.1 h).imp (fun ha => iha ha mark hmem) (fun hb => ihb hb mark hmem)
  | times least most greedy e ih =>
    obtain ⟨n, hcopies⟩ := copies_of_takes_times h
    exact hcopies.forall_marks fun _ _ _ hcopy => ih hcopy

/-! ## Numbers given out -/

def Part.groups (p : Part) : List Nat := (p.expr.map Expr.groups).getD []

/-- The groups inside a group that is being read. -/
def Level.groups (level : Level) : List Nat :=
  level.branches.flatMap (·.expr.groups) ++ level.parts.flatMap Part.groups

/-- The groups of all that has been read. -/
def Reading.groups (r : Reading) : List Nat :=
  r.openGroups.flatMap (fun g => g.number.toList ++ g.around.groups) ++ r.level.groups

theorem flatMap_groups_parts (parts : List Part) :
    (parts.filterMap Part.expr).flatMap Expr.groups = parts.flatMap Part.groups := by
  induction parts with
  | nil => rfl
  | cons p parts ih =>
    obtain ⟨_ | e, depth⟩ := p
    · simpa [Part.groups] using ih
    · simp [Part.groups, ih]

theorem Level.mem_groups_branch (level : Level) :
    n ∈ level.branch.expr.groups ↔ n ∈ level.parts.flatMap Part.groups := by
  rw [Level.branch, Expr.groups_seq, flatMap_groups_parts]
  simp

theorem Level.mem_groups_whole (level : Level) :
    n ∈ level.whole.expr.groups ↔ n ∈ level.groups := by
  rw [Level.whole, Expr.mem_groups_oneOf, List.flatMap_map, Level.groups, List.mem_append,
    ← level.mem_groups_branch, List.mem_flatMap, List.mem_flatMap, or_comm]
  simp only [List.mem_reverse, List.mem_cons, exists_eq_or_imp]

theorem Level.mem_groups_push {level : Level} {depth : Nat} :
    n ∈ (level.push e depth).groups ↔ n ∈ e.groups ∨ n ∈ level.groups := by
  simp only [Level.push, Level.groups, List.flatMap_cons, Part.groups, Option.map_some,
    Option.getD_some, List.mem_append]
  tauto

theorem Reading.mem_groups_push {r : Reading} {depth : Nat} :
    n ∈ (r.push e depth).groups ↔ n ∈ e.groups ∨ n ∈ r.groups := by
  simp only [Reading.push, Reading.groups, List.mem_append, Level.mem_groups_push]
  tauto

theorem Reading.mem_groups_enter {r : Reading} {number : Option Nat} {flags : Flags} :
    n ∈ (r.enter number flags).groups ↔ n ∈ number ∨ n ∈ r.groups := by
  simp only [Reading.enter, Reading.groups, List.flatMap_cons, List.mem_append, Level.groups,
    Option.mem_toList, List.flatMap_nil, List.not_mem_nil, or_false]
  tauto

theorem OpenGroup.mem_groups_close {g : OpenGroup} {body : Nested} :
    n ∈ (g.close body).groups ↔
      n ∈ body.expr.groups ∨ n ∈ g.number.toList ++ g.around.groups := by
  obtain ⟨around, flags, _ | number⟩ := g
  · exact Level.mem_groups_push
  · rw [OpenGroup.close, Level.mem_groups_push]
    simp only [Expr.groups, List.mem_cons, Option.toList_some, List.mem_append]
    tauto

/-- Whether a lexeme takes away what it repeats. -/
def Lexeme.drops : Lexeme → Bool
  | .times _ most _ => most == some 0
  | _ => false

namespace Reading

variable {r r' s : Reading} {l : Lexeme} {ls : List Lexeme}

theorem mem_groups_times {least : Nat} {most : Option Nat} {greedy : Bool}
    (h : r.step (.times least most greedy) = .ok r') :
    r'.count = r.count ∧ (∀ n ∈ r'.groups, n ∈ r.groups) ∧
      (most ≠ some 0 → ∀ n, n ∈ r'.groups ↔ n ∈ r.groups) := by
  rw [step] at h
  split at h
  · next e depth parts hparts =>
    cases h
    simp only [groups, Level.groups, List.flatMap_cons, Part.groups, Option.map_some,
      Option.getD_some, hparts, Expr.groups_repeated, List.mem_append]
    refine ⟨trivial, fun n hn => ?_, fun hmost n => by rw [if_neg hmost]⟩
    split at hn
    · exact hn.imp_right fun hn => hn.imp_right fun hn => .inr (hn.resolve_left List.not_mem_nil)
    · exact hn
  · cases h

theorem mem_groups_close (h : r.step .close = .ok r') :
    r'.count = r.count ∧ ∀ n, n ∈ r'.groups ↔ n ∈ r.groups := by
  rw [step] at h
  split at h
  · next g openGroups hopen =>
    cases h
    refine ⟨rfl, fun n => ?_⟩
    simp only [groups, hopen, List.flatMap_cons, List.mem_append, OpenGroup.mem_groups_close,
      Level.mem_groups_whole]
    tauto
  · cases h

theorem mem_groups_nextBranch (n : Nat) :
    n ∈ { r with level := r.level.nextBranch }.groups ↔ n ∈ r.groups := by
  simp only [groups, Level.nextBranch, Level.groups, List.flatMap_cons, List.flatMap_nil,
    List.append_nil, List.mem_append, Level.mem_groups_branch]
  tauto

/-- From `r` to `r'` no group is lost, and those that come in are the ones numbered on the way. -/
structure Numbers (r r' : Reading) : Prop where
  count_le : r.count ≤ r'.count
  mem_groups : ∀ n, n ∈ r'.groups ↔ n ∈ r.groups ∨ r.count < n ∧ n ≤ r'.count

theorem Numbers.of_groups (hcount : r'.count = r.count)
    (hgroups : ∀ n, n ∈ r'.groups ↔ n ∈ r.groups) : r.Numbers r' := by
  refine ⟨Nat.le_of_eq hcount.symm, fun n => ?_⟩
  rw [hgroups, hcount]
  exact (or_iff_left fun hn => Nat.not_lt.2 hn.2 hn.1).symm

theorem Numbers.push (he : e.groups = []) (depth : Nat) : r.Numbers (r.push e depth) := by
  refine .of_groups rfl fun n => ?_
  rw [mem_groups_push, he]
  simp

theorem Numbers.capture (names : List (List Char)) :
    r.Numbers { r.enter (some (r.count + 1)) r.flags with count := r.count + 1, names } := by
  refine ⟨Nat.le_succ _, fun n => ?_⟩
  have henter : n ∈ (r.enter (some (r.count + 1)) r.flags).groups ↔
      n ∈ r.groups ∨ r.count + 1 = n := by
    rw [mem_groups_enter, Option.mem_some_iff, or_comm]
  refine henter.trans (or_congr_right ?_)
  dsimp only
  omega

theorem Numbers.trans (h : r.Numbers s) (h' : s.Numbers r') : r.Numbers r' := by
  have hle := h.count_le
  have hle' := h'.count_le
  refine ⟨Nat.le_trans hle hle', fun n => ?_⟩
  rw [h'.mem_groups, h.mem_groups, or_assoc]
  refine or_congr_right ?_
  omega

theorem Numbers.step (h : r.step l = .ok r') (hl : l.drops = false) : r.Numbers r' := by
  -- No group comes in but the one that the lexeme opens.
  cases l with
  | times least most greedy =>
    obtain ⟨hcount, -, hgroups⟩ := mem_groups_times h
    exact .of_groups hcount (hgroups (by simpa [Lexeme.drops] using hl))
  | close =>
    obtain ⟨hcount, hgroups⟩ := mem_groups_close h
    exact .of_groups hcount hgroups
  | openCapture name =>
    cases name with
    | none =>
      cases h
      exact .capture r.names
    | some name =>
      rw [Reading.step] at h
      split at h <;> cases h
      exact .capture (name :: r.names)
  | openPlain changes =>
    cases h
    refine .of_groups rfl fun n => ?_
    rw [mem_groups_enter]
    simp
  | setFlags changes =>
    cases h
    exact .of_groups rfl fun n => .rfl
  | bar =>
    cases h
    exact .of_groups rfl mem_groups_nextBranch
  | _ =>
    cases h
    exact .push rfl _

theorem Numbers.foldlM (h : ls.foldlM Reading.step r = .ok r') (hls : ∀ l ∈ ls, l.drops = false) :
    r.Numbers r' := by
  induction ls generalizing r with
  | nil =>
    cases h
    exact .of_groups rfl fun n => .rfl
  | cons l ls ih =>
    rw [List.foldlM_cons] at h
    obtain ⟨s, hs, h⟩ := bind_eq_ok.1 h
    obtain ⟨hl, hls⟩ := List.forall_mem_cons.1 hls
    exact (Numbers.step hs hl).trans (ih h hls)

theorem groups_step (h : r.step l = .ok r') :
    r.count ≤ r'.count ∧ ∀ n ∈ r'.groups, n ∈ r.groups ∨ r.count < n ∧ n ≤ r'.count := by
  -- A repetition may take groups away, but none comes in that is not numbered.
  cases hl : l.drops with
  | false =>
    obtain ⟨hle, hgroups⟩ := Numbers.step h hl
    exact ⟨hle, fun n => (hgroups n).1⟩
  | true =>
    cases l with
    | times least most greedy =>
      obtain ⟨hcount, hgroups, -⟩ := mem_groups_times h
      exact ⟨Nat.le_of_eq hcount.symm, fun n hn => .inl (hgroups n hn)⟩
    | _ => cases hl

theorem groups_foldlM (h : ls.foldlM Reading.step r = .ok r') :
    r.count ≤ r'.count ∧ ∀ n ∈ r'.groups, n ∈ r.groups ∨ r.count < n ∧ n ≤ r'.count := by
  induction ls generalizing r with
  | nil =>
    cases h
    exact ⟨Nat.le_refl _, fun n => .inl⟩
  | cons l ls ih =>
    rw [List.foldlM_cons] at h
    obtain ⟨s, hs, h⟩ := bind_eq_ok.1 h
    obtain ⟨hle, hgroups⟩ := groups_step hs
    obtain ⟨hle', hgroups'⟩ := ih h
    refine ⟨Nat.le_trans hle hle', fun n hn => ?_⟩
    rcases hgroups' n hn with hn | hn
    · exact (hgroups n hn).imp_right fun hn => ⟨hn.1, Nat.le_trans hn.2 hle'⟩
    · exact .inr ⟨Nat.lt_of_le_of_lt hle hn.1, hn.2⟩

end Reading

theorem groups_of_read {cs : List Char} (h : Expr.read cs = .ok e) :
    ∃ ls r, lexemes 0 cs = .ok ls ∧ ls.foldlM Reading.step {} = .ok r ∧
      (∀ n ∈ e.groups, 0 < n ∧ n ≤ r.count) ∧
      ((∀ l ∈ ls, l.drops = false) → ∀ n, 0 < n ∧ n ≤ r.count → n ∈ e.groups) := by
  obtain ⟨ls, hls, h⟩ := bind_eq_ok.1 h
  obtain ⟨whole, hwhole, h⟩ := bind_eq_ok.1 h
  obtain ⟨r, hr, hfinish⟩ := bind_eq_ok.1 hwhole
  have he : e = whole.expr := by
    split at h
    · cases h
    · split at h <;> cases h
      rfl
  rw [Reading.finish] at hfinish
  split at hfinish
  · next hclosed =>
    cases hfinish
    have hgroups : ∀ n, n ∈ e.groups ↔ n ∈ r.groups := by
      intro n
      rw [he, Level.mem_groups_whole, Reading.groups, List.isEmpty_iff.1 hclosed]
      rfl
    refine ⟨ls, r, hls, hr, fun n hn => ?_, fun hl n hn => ?_⟩
    · obtain ⟨-, hnew⟩ := Reading.groups_foldlM hr
      exact (hnew n ((hgroups n).1 hn)).resolve_left List.not_mem_nil
    · exact (hgroups n).2 (((Reading.Numbers.foldlM hr hl).mem_groups n).2 (.inr hn))
  · cases hfinish

theorem groups_pos_of_read {cs : List Char} (h : Expr.read cs = .ok e) :
    ∀ n ∈ e.groups, 0 < n := by
  obtain ⟨ls, r, -, -, hgroups, -⟩ := groups_of_read h
  exact fun n hn => (hgroups n hn).1

end Signpost.Regex
