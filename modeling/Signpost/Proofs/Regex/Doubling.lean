import Signpost.Proofs.Regex.Groups
import Signpost.Proofs.Regex.Search

/-!
# Doubled groups

A tree may have two groups where another has one, the second right inside the first, and higher
numbers for the groups behind it. Both are put together in the same way and match the same texts.
-/

namespace Signpost.Regex

variable {k n : Nat} {e a b : Expr} {es fs : List Expr}

/-! ## The tree -/

namespace Expr

/-- The number of a group where one group more stands right inside group `k`. -/
def movedUp (k n : Nat) : Nat := if n ≤ k then n else n + 1

/-- A group with its number there, and group `k` with the group inside it. -/
def regroup (k n : Nat) (e : Expr) : Expr :=
  if n = k then group k (group (k + 1) e) else group (movedUp k n) e

/-- The tree with a second group right inside group `k`. The groups with higher numbers move up. -/
def doubled (k : Nat) : Expr → Expr
  | empty => empty
  | char s => char s
  | look l => look l
  | group n e => regroup k n (e.doubled k)
  | cat a b => cat (a.doubled k) (b.doubled k)
  | alt a b => alt (a.doubled k) (b.doubled k)
  | times least most greedy e => times least most greedy (e.doubled k)

theorem regroup_eq (k n : Nat) (e : Expr) : ∃ m f, regroup k n e = group m f := by
  unfold regroup
  split
  · exact ⟨_, _, rfl⟩
  · exact ⟨_, _, rfl⟩

theorem regroup_ne (h : ∀ m f, b ≠ group m f) : regroup k n a ≠ b := by
  obtain ⟨m, f, hgroup⟩ := regroup_eq k n a
  rw [hgroup]
  exact (h m f).symm

theorem movedUp_inj {m : Nat} (h : movedUp k n = movedUp k m) : n = m := by
  unfold movedUp at h
  split at h <;> split at h <;> omega

theorem movedUp_ne (h : n ≠ k) : movedUp k n ≠ k := by
  unfold movedUp
  split <;> omega

theorem regroup_inj {m : Nat} (h : regroup k n a = regroup k m b) : n = m ∧ a = b := by
  unfold regroup at h
  by_cases hn : n = k
  · by_cases hm : m = k
    · rw [if_pos hn, if_pos hm] at h
      exact ⟨hn.trans hm.symm, (group.inj (group.inj h).2).2⟩
    · rw [if_pos hn, if_neg hm] at h
      exact absurd (group.inj h).1.symm (movedUp_ne hm)
  · by_cases hm : m = k
    · rw [if_neg hn, if_pos hm] at h
      exact absurd (group.inj h).1 (movedUp_ne hn)
    · rw [if_neg hn, if_neg hm] at h
      exact ⟨movedUp_inj (group.inj h).1, (group.inj h).2⟩

theorem doubled_inj : a.doubled k = b.doubled k ↔ a = b := by
  refine ⟨fun h => ?_, fun h => h ▸ rfl⟩
  induction a generalizing b with
  | group n e ih =>
    cases b with
    | group m f =>
      obtain ⟨hnumber, hbody⟩ := regroup_inj h
      rw [hnumber, ih hbody]
    | _ => exact absurd h (regroup_ne fun _ _ => nofun)
  | cat a a' ih ih' =>
    cases b with
    | group m f => exact absurd h.symm (regroup_ne fun _ _ => nofun)
    | cat b b' => rw [ih (cat.inj h).1, ih' (cat.inj h).2]
    | _ => cases h
  | alt a a' ih ih' =>
    cases b with
    | group m f => exact absurd h.symm (regroup_ne fun _ _ => nofun)
    | alt b b' => rw [ih (alt.inj h).1, ih' (alt.inj h).2]
    | _ => cases h
  | times least most greedy a ih =>
    cases b with
    | group m f => exact absurd h.symm (regroup_ne fun _ _ => nofun)
    | times least' most' greedy' b =>
      obtain ⟨rfl, rfl, rfl, hbody⟩ := times.inj h
      rw [ih hbody]
    | _ => cases h
  | _ =>
    cases b with
    | group m f => exact absurd h.symm (regroup_ne fun _ _ => nofun)
    | _ => first | exact h | cases h

theorem doubled_of_lt (h : ∀ n ∈ e.groups, n < k) : e.doubled k = e := by
  induction e with
  | group n e ih =>
    obtain ⟨hn, he⟩ := List.forall_mem_cons.1 h
    rw [doubled, ih he, regroup, if_neg (Nat.ne_of_lt hn), movedUp, if_pos (Nat.le_of_lt hn)]
  | cat a b iha ihb =>
    obtain ⟨ha, hb⟩ := List.forall_mem_append.1 h
    rw [doubled, iha ha, ihb hb]
  | alt a b iha ihb =>
    obtain ⟨ha, hb⟩ := List.forall_mem_append.1 h
    rw [doubled, iha ha, ihb hb]
  | times least most greedy e ih => rw [doubled, ih h]
  | _ => rfl

/-! ### What trees are put together from -/

theorem items_doubled (e : Expr) : (e.doubled k).items = e.items.map (doubled k) := by
  induction e with
  | group n e =>
    obtain ⟨m, f, hgroup⟩ := regroup_eq k n (e.doubled k)
    simp [items, doubled, hgroup]
  | cat a b iha ihb => simp [items, doubled, iha, ihb]
  | _ => rfl

theorem branches_doubled (e : Expr) : (e.doubled k).branches = e.branches.map (doubled k) := by
  induction e with
  | group n e =>
    obtain ⟨m, f, hgroup⟩ := regroup_eq k n (e.doubled k)
    simp [branches, doubled, hgroup]
  | alt a b iha ihb => simp [branches, doubled, iha, ihb]
  | _ => rfl

theorem set?_doubled (e : Expr) : (e.doubled k).set? = e.set? := by
  cases e with
  | group n e =>
    obtain ⟨m, f, hgroup⟩ := regroup_eq k n (e.doubled k)
    rw [doubled, hgroup]
    rfl
  | _ => rfl

theorem letter?_doubled (e : Expr) : (e.doubled k).letter? = e.letter? := by
  rw [letter?, set?_doubled, letter?]

theorem takesNothing_doubled (e : Expr) : (e.doubled k).takesNothing = e.takesNothing := by
  induction e with
  | group n e ih =>
    rw [doubled, regroup]
    split <;> exact ih
  | cat a b iha ihb => simp only [doubled, takesNothing, iha, ihb]
  | alt a b iha ihb => simp only [doubled, takesNothing, iha, ihb]
  | times least most greedy e ih => simp only [doubled, takesNothing, ih]
  | _ => rfl

theorem ofItems_doubled (es : List Expr) :
    ofItems (es.map (doubled k)) = (ofItems es).doubled k := by
  induction es with
  | nil => rfl
  | cons e es ih =>
    cases es with
    | nil => rfl
    | cons f fs => exact congrArg (cat (e.doubled k)) ih

theorem ofBranches_doubled (es : List Expr) :
    ofBranches (es.map (doubled k)) = (ofBranches es).doubled k := by
  induction es with
  | nil => rfl
  | cons e es ih =>
    cases es with
    | nil => rfl
    | cons f fs => exact congrArg (alt (e.doubled k)) ih

theorem flatMap_doubled {f : Expr → List Expr}
    (hf : ∀ e : Expr, f (e.doubled k) = (f e).map (doubled k)) (es : List Expr) :
    (es.map (doubled k)).flatMap f = (es.flatMap f).map (doubled k) := by
  simp only [List.flatMap_map, List.map_flatMap, hf]

theorem seq_doubled (es : List Expr) : seq (es.map (doubled k)) = (seq es).doubled k := by
  rw [seq, flatMap_doubled items_doubled, ofItems_doubled, seq]

theorem onAll?_map {α β : Type} {f : α → Option β} {g : α → α} (h : ∀ a, f (g a) = f a)
    (as : List α) : onAll? f (as.map g) = onAll? f as := by
  induction as with
  | nil => rfl
  | cons a as ih => simp only [List.map_cons, onAll?, h, ih]

theorem merged_doubled (es : List Expr) : merged (es.map (doubled k)) = merged es := by
  have hletters : (es.map (doubled k)).filterMap letter? = es.filterMap letter? := by
    simp only [List.filterMap_map, Function.comp_def, letter?_doubled]
  unfold merged
  rw [onAll?_map letter?_doubled, onAll?_map set?_doubled, hletters]

theorem doubled_of_merged (h : merged es = some e) : e.doubled k = e :=
  doubled_of_lt (by simp [(groups_merged h).1])

theorem beginsWithLetter_doubled (e : Expr) :
    (e.doubled k).beginsWithLetter = e.beginsWithLetter := by
  cases e with
  | group n e =>
    obtain ⟨m, f, hgroup⟩ := regroup_eq k n (e.doubled k)
    rw [doubled, hgroup]
    rfl
  | cat a b => simp only [doubled, beginsWithLetter, letter?_doubled]
  | _ => rfl

theorem joinLetters_doubled (es : List Expr) :
    joinLetters (es.map (doubled k)) = (joinLetters es).map (doubled k) := by
  induction es with
  | nil => rfl
  | cons e es ih =>
    rw [List.map_cons, joinLetters, ih, joinLetters]
    cases joinLetters es with
    | nil => rfl
    | cons next rest =>
      simp only [List.map_cons, letter?_doubled, beginsWithLetter_doubled]
      split <;> rfl

theorem sharedFront_doubled (es fs : List Expr) :
    sharedFront (es.map (doubled k)) (fs.map (doubled k)) =
      (sharedFront es fs).map (doubled k) := by
  induction es generalizing fs with
  | nil => rfl
  | cons e es ih =>
    cases fs with
    | nil => rfl
    | cons f fs =>
      simp only [List.map_cons, sharedFront, doubled_inj, ih]
      split <;> rfl

theorem foldl_sharedFront_doubled (front : List Expr) (others : List (List Expr)) :
    (others.map (List.map (doubled k))).foldl sharedFront (front.map (doubled k)) =
      (others.foldl sharedFront front).map (doubled k) := by
  induction others generalizing front with
  | nil => rfl
  | cons other others ih => rw [List.map_cons, List.foldl_cons, sharedFront_doubled, ih,
      List.foldl_cons]

theorem front?_doubled (es : List Expr) :
    front? (es.map (doubled k)) =
      (front? es).map fun r => (r.1.map (doubled k), r.2.map (doubled k)) := by
  have hparts : (es.map (doubled k)).map (fun e => joinLetters e.items) =
      (es.map fun e => joinLetters e.items).map (List.map (doubled k)) := by
    simp only [List.map_map, Function.comp_def, items_doubled, joinLetters_doubled]
  simp only [front?, hparts]
  generalize es.map (fun e => joinLetters e.items) = parts
  cases parts with
  | nil => rfl
  | cons first others =>
    have hshort : ((first :: others).map (List.map (doubled k))).any (fun p => p.length < 2) =
        (first :: others).any (fun p => p.length < 2) := by
      simp only [List.any_map, Function.comp_def, List.length_map]
    have hfront := foldl_sharedFront_doubled first others (k := k)
    simp only [List.map_cons] at hshort ⊢
    simp only [hshort, hfront, List.isEmpty_map, List.length_map]
    split
    · rfl
    · simp [← List.map_drop, seq_doubled]

theorem oneOf_many (h : ∀ e, es.flatMap branches ≠ [e]) :
    oneOf es = (merged (es.flatMap branches)).getD
      (match front? (es.flatMap branches) with
        | some (front, rests) =>
          seq (front ++ [(merged (rests.flatMap branches)).getD
            (ofBranches (rests.flatMap branches))])
        | none => ofBranches (es.flatMap branches)) := by
  unfold oneOf
  split
  · next e he => exact absurd he (h e)
  · cases merged (es.flatMap branches) <;> rfl

theorem merged_getD_doubled (es : List Expr) {e : Expr} :
    (merged (es.map (doubled k))).getD (e.doubled k) = ((merged es).getD e).doubled k := by
  rw [merged_doubled]
  cases hm : merged es with
  | none => rfl
  | some e => exact (doubled_of_merged hm).symm

theorem oneOf_doubled (es : List Expr) : oneOf (es.map (doubled k)) = (oneOf es).doubled k := by
  have hbranches := fun es : List Expr => flatMap_doubled (k := k) branches_doubled es
  by_cases hone : ∃ e, es.flatMap branches = [e]
  · obtain ⟨e, he⟩ := hone
    rw [oneOf, hbranches, he, oneOf, he]
    rfl
  · rw [not_exists] at hone
    have hone' : ∀ e, (es.map (doubled k)).flatMap branches ≠ [e] := by
      intro e he
      rw [hbranches, List.map_eq_singleton_iff] at he
      obtain ⟨f, hf, -⟩ := he
      exact hone f hf
    rw [oneOf_many hone, oneOf_many hone', hbranches, front?_doubled, ← merged_getD_doubled]
    refine congrArg _ ?_
    cases front? (es.flatMap branches) with
    | none => exact ofBranches_doubled _
    | some r =>
      obtain ⟨front, rests⟩ := r
      dsimp only [Option.map_some]
      rw [hbranches, ofBranches_doubled, merged_getD_doubled, ← seq_doubled, List.map_append]
      rfl

theorem repeated_doubled (least : Nat) (most : Option Nat) (greedy : Bool) (e : Expr) :
    repeated least most greedy (e.doubled k) = (repeated least most greedy e).doubled k := by
  unfold repeated
  rw [takesNothing_doubled]
  generalize (if e.takesNothing then (min least 1, some (min 1 (most.getD 1))) else (least, most)) =
    bounds
  dsimp only
  split
  · rfl
  · split <;> rfl

end Expr

/-! ## What the tree matches -/

section Spans

variable {text : List Char} {i j : Nat}

/-- The expression takes what lies between two places, whatever it marks there. -/
def Expr.Spans (e : Expr) (text : List Char) (i j : Nat) : Prop := ∃ m, Takes text e i j m

theorem spans_group : (Expr.group n e).Spans text i j ↔ e.Spans text i j := by
  constructor
  · rintro ⟨m, h⟩
    obtain ⟨marks, h, -⟩ := takes_group.1 h
    exact ⟨marks, h⟩
  · rintro ⟨m, h⟩
    exact ⟨_, takes_group.2 ⟨m, h, rfl⟩⟩

theorem spans_cat :
    (Expr.cat a b).Spans text i j ↔ ∃ l, a.Spans text i l ∧ b.Spans text l j := by
  constructor
  · rintro ⟨m, h⟩
    obtain ⟨l, ma, mb, ha, hb, -⟩ := takes_cat.1 h
    exact ⟨l, ⟨ma, ha⟩, ⟨mb, hb⟩⟩
  · rintro ⟨l, ⟨ma, ha⟩, ⟨mb, hb⟩⟩
    exact ⟨_, takes_cat.2 ⟨l, ma, mb, ha, hb, rfl⟩⟩

theorem spans_alt : (Expr.alt a b).Spans text i j ↔ a.Spans text i j ∨ b.Spans text i j := by
  simp only [Expr.Spans, takes_alt, exists_or]

theorem exists_copies_of_spans (h : ∀ i j, a.Spans text i j → b.Spans text i j)
    (hcopies : ∃ m, Copies text a n i j m) : ∃ m, Copies text b n i j m := by
  induction n generalizing i with
  | zero =>
    obtain ⟨m, hm⟩ := hcopies
    exact ⟨m, hm⟩
  | succ n ih =>
    obtain ⟨m, l, ma, mb, ha, hrest, -⟩ := hcopies
    obtain ⟨ma', ha'⟩ := h i l ⟨ma, ha⟩
    obtain ⟨mb', hrest'⟩ := ih ⟨mb, hrest⟩
    exact ⟨_, l, ma', mb', ha', hrest', rfl⟩

theorem Expr.Spans.times {least : Nat} {most : Option Nat} {greedy : Bool}
    (h : ∀ i j, a.Spans text i j → b.Spans text i j)
    (hspans : (Expr.times least most greedy a).Spans text i j) :
    (Expr.times least most greedy b).Spans text i j := by
  obtain ⟨p, hp⟩ := takes_times least most greedy
  obtain ⟨m, hm⟩ := hspans
  obtain ⟨n, hn, hcopies⟩ := (hp text a i j m).1 hm
  obtain ⟨m', hcopies'⟩ := exists_copies_of_spans h ⟨m, hcopies⟩
  exact ⟨m', (hp text b i j m').2 ⟨n, hn, hcopies'⟩⟩

theorem spans_doubled : (e.doubled k).Spans text i j ↔ e.Spans text i j := by
  induction e generalizing i j with
  | group n e ih =>
    rw [Expr.doubled, Expr.regroup, spans_group, ← ih]
    split <;> simp only [spans_group]
  | cat a b iha ihb => simp only [Expr.doubled, spans_cat, iha, ihb]
  | alt a b iha ihb => simp only [Expr.doubled, spans_alt, iha, ihb]
  | times least most greedy e ih =>
    exact ⟨.times fun i j => ih.1, .times fun i j => ih.2⟩
  | _ => rfl

end Spans

theorem isMatch_eq_of_doubled {r s : Regex} (h : s.expr = r.expr.doubled k) (text : String) :
    s.isMatch text = r.isMatch text := by
  have hspans : ∀ q : Regex, q.isMatch text = true ↔
      ∃ i j, i ≤ text.toList.length ∧ q.expr.Spans text.toList i j := by
    intro q
    rw [isMatch_iff]
    constructor
    · rintro ⟨i, j, m, hi, hm⟩
      exact ⟨i, j, hi, spans_group.1 ⟨m, hm⟩⟩
    · rintro ⟨i, j, hi, hspans⟩
      obtain ⟨m, hm⟩ := spans_group.2 hspans
      exact ⟨i, j, m, hi, hm⟩
  rw [Bool.eq_iff_iff, hspans, hspans, h]
  simp only [spans_doubled]

end Signpost.Regex
