import Mathlib.Data.List.Forall2
import Signpost.Proofs.Regex.Doubling
import Signpost.Proofs.Regex.Lexing

/-!
# Pairs of parentheses

A text may have two pairs of parentheses where another has one. It is then read into the same tree
but for a doubled group. A text with one parenthesis only where another has a pair is not read.
-/

namespace Signpost.Regex

variable {k n : Nat} {e : Expr} {cs : List Char}

/-! ## Reading doubled parentheses -/

/-- The second tree is the first with a doubled group, and its text is nested as deep at least. -/
structure Nested.Doubled (k : Nat) (x y : Nested) : Prop where
  expr : y.expr = x.expr.doubled k
  depth : x.depth ≤ y.depth

structure Part.Doubled (k : Nat) (p q : Part) : Prop where
  expr : q.expr = p.expr.map (Expr.doubled k)
  depth : p.depth ≤ q.depth

structure Level.Doubled (k : Nat) (a b : Level) : Prop where
  branches : List.Forall₂ (Nested.Doubled k) a.branches b.branches
  parts : List.Forall₂ (Part.Doubled k) a.parts b.parts

/-- Whatever is read inside the two groups, they close alike. -/
structure OpenGroup.Doubled (k : Nat) (g h : OpenGroup) : Prop where
  flags : h.flags = g.flags
  close : ∀ x y : Nested, x.Doubled k y → (g.close x).Doubled k (h.close y)

/-- Behind a doubled group one group more has been numbered, and else all is alike. -/
structure Reading.Doubled (k : Nat) (r s : Reading) : Prop where
  openGroups : List.Forall₂ (OpenGroup.Doubled k) r.openGroups s.openGroups
  level : r.level.Doubled k s.level
  flags : s.flags = r.flags
  past : k ≤ r.count
  count : s.count = r.count + 1
  names : s.names = r.names

theorem listDepth_mono {as bs : List Nat} (h : List.Forall₂ (· ≤ ·) as bs) :
    listDepth as ≤ listDepth bs := by
  have hmax : ∀ {as bs : List Nat} {x y : Nat}, x ≤ y → List.Forall₂ (· ≤ ·) as bs →
      as.foldl max x ≤ bs.foldl max y := by
    intro as bs x y hxy h
    induction h generalizing x y with
    | nil => exact hxy
    | cons hd _ ih => exact ih (by omega)
  cases h with
  | nil => exact Nat.le_refl _
  | cons hd h =>
    cases h with
    | nil => exact hd
    | cons hd' h => exact Nat.succ_le_succ (hmax (Nat.le_refl 0) (.cons hd (.cons hd' h)))

theorem filterMap_expr_doubled {ps qs : List Part} (h : List.Forall₂ (Part.Doubled k) ps qs) :
    qs.filterMap Part.expr = (ps.filterMap Part.expr).map (Expr.doubled k) := by
  induction h with
  | nil => rfl
  | @cons p q ps qs hpq _ ih =>
    rw [List.filterMap_cons, List.filterMap_cons, hpq.expr, ih]
    cases p.expr <;> rfl

theorem map_expr_doubled {xs ys : List Nested} (h : List.Forall₂ (Nested.Doubled k) xs ys) :
    ys.map Nested.expr = (xs.map Nested.expr).map (Expr.doubled k) := by
  induction h with
  | nil => rfl
  | cons hxy _ ih => rw [List.map_cons, hxy.expr, ih, List.map_cons, List.map_cons]

theorem depths_le {α : Type} {depth : α → Nat} {R : α → α → Prop} {xs ys : List α}
    (hR : ∀ x y, R x y → depth x ≤ depth y) (h : List.Forall₂ R xs ys) :
    List.Forall₂ (· ≤ ·) (xs.map depth) (ys.map depth) := by
  rw [List.forall₂_map_left_iff, List.forall₂_map_right_iff]
  exact h.imp hR

namespace Level.Doubled

variable {x y : Level}

theorem push {d d' : Nat} (h : x.Doubled k y) (hd : d ≤ d') :
    (x.push e d).Doubled k (y.push (e.doubled k) d') :=
  ⟨h.branches, .cons ⟨rfl, hd⟩ h.parts⟩

theorem branch (h : x.Doubled k y) : x.branch.Doubled k y.branch := by
  refine ⟨?_, listDepth_mono (depths_le (fun p q => Part.Doubled.depth) h.parts)⟩
  rw [Level.branch, filterMap_expr_doubled (List.forall₂_reverse_iff.2 h.parts),
    Expr.seq_doubled, Level.branch]

theorem nextBranch (h : x.Doubled k y) : x.nextBranch.Doubled k y.nextBranch :=
  ⟨.cons h.branch h.branches, .nil⟩

theorem whole (h : x.Doubled k y) : x.whole.Doubled k y.whole := by
  have hbranches := List.forall₂_reverse_iff.2 (List.Forall₂.cons h.branch h.branches)
  refine ⟨?_, listDepth_mono (depths_le (fun p q => Nested.Doubled.depth) hbranches)⟩
  rw [Level.whole, map_expr_doubled hbranches, Expr.oneOf_doubled, Level.whole]

end Level.Doubled

theorem OpenGroup.doubled_of_level {x y : Level} (h : x.Doubled k y) (flags : Flags)
    {number : Option Nat} (hnumber : ∀ n ∈ number, n ≠ k) :
    OpenGroup.Doubled k ⟨x, flags, number⟩ ⟨y, flags, number.map (Expr.movedUp k)⟩ := by
  refine ⟨rfl, fun a b hab => ?_⟩
  have hdepth := Nat.succ_le_succ hab.depth
  cases number with
  | none =>
    have hpushed := h.push (e := a.expr) hdepth
    rwa [← hab.expr] at hpushed
  | some n =>
    have hgroup : (Expr.group n a.expr).doubled k = .group (Expr.movedUp k n) b.expr := by
      rw [Expr.doubled, Expr.regroup, if_neg (hnumber n rfl), hab.expr]
    have hpushed := h.push (e := .group n a.expr) hdepth
    rwa [hgroup] at hpushed

/-! ### Where nothing is doubled -/

theorem Level.doubled_self {level : Level} (h : ∀ n ∈ level.groups, n < k) :
    level.Doubled k level := by
  obtain ⟨hbranches, hparts⟩ := List.forall_mem_append.1 h
  refine ⟨List.forall₂_same.2 fun x hx => ⟨?_, Nat.le_refl _⟩,
    List.forall₂_same.2 fun p hp => ⟨?_, Nat.le_refl _⟩⟩
  · exact (Expr.doubled_of_lt fun n hn => hbranches n (List.mem_flatMap.2 ⟨x, hx, hn⟩)).symm
  · cases he : p.expr with
    | none => rfl
    | some e =>
      refine congrArg some (Expr.doubled_of_lt fun n hn => hparts n ?_).symm
      exact List.mem_flatMap.2 ⟨p, hp, by rwa [Part.groups, he]⟩

theorem OpenGroup.doubled_self {g : OpenGroup} (h : ∀ n ∈ g.number.toList ++ g.around.groups, n < k) :
    g.Doubled k g := by
  obtain ⟨hnumber, haround⟩ := List.forall_mem_append.1 h
  obtain ⟨around, flags, number⟩ := g
  have hlt : ∀ n ∈ number, n < k := fun n hn => hnumber n (Option.mem_toList.2 hn)
  have hsame : number.map (Expr.movedUp k) = number := by
    cases number with
    | none => rfl
    | some n => exact congrArg some (if_pos (Nat.le_of_lt (hlt n rfl)))
  have hdoubled := doubled_of_level (Level.doubled_self haround) flags fun n hn =>
    Nat.ne_of_lt (hlt n hn)
  rwa [hsame] at hdoubled

/-! ### What is read behind the groups -/

namespace Reading.Doubled

variable {r s s' : Reading}

theorem push {d d' : Nat} (h : r.Doubled k s) (hd : d ≤ d') :
    (r.push e d).Doubled k (s.push (e.doubled k) d') :=
  { h with level := h.level.push hd }

theorem enter (h : r.Doubled k s) (flags : Flags) (number : Option Nat)
    (hnumber : ∀ n ∈ number, k < n) :
    (r.enter number flags).Doubled k (s.enter (number.map (· + 1)) flags) where
  openGroups := by
    have hup : number.map (· + 1) = number.map (Expr.movedUp k) :=
      Option.map_congr fun n hn => (if_neg (Nat.not_le.2 (hnumber n hn))).symm
    refine .cons ?_ h.openGroups
    rw [h.flags, hup]
    exact OpenGroup.doubled_of_level h.level r.flags fun n hn => Nat.ne_of_gt (hnumber n hn)
  level := ⟨.nil, .nil⟩
  flags := rfl
  past := h.past
  count := h.count
  names := h.names

theorem capture (h : r.Doubled k s) {names names' : List (List Char)} (hnames : names' = names) :
    Reading.Doubled k
      { r.enter (some (r.count + 1)) r.flags with count := r.count + 1, names }
      { s.enter (some (s.count + 1)) s.flags with count := s.count + 1, names := names' } := by
  have hpast := Nat.le_succ_of_le h.past
  have hentered := h.enter r.flags (some (r.count + 1)) (by
    rintro n ⟨⟩
    exact Nat.lt_succ_of_le h.past)
  rw [h.flags, h.count]
  exact { hentered with past := hpast, count := rfl, names := hnames }

theorem step_times {least : Nat} {most : Option Nat} {greedy : Bool} (h : r.Doubled k s)
    (hs : s.step (.times least most greedy) = .ok s') :
    ∃ r', r.step (.times least most greedy) = .ok r' ∧ r'.Doubled k s' := by
  have hparts := h.level.parts
  rw [Reading.step] at hs ⊢
  split at hs
  · next e depth parts hlast =>
    cases hs
    rw [hlast] at hparts
    obtain ⟨⟨f?, d⟩, ps, hpart, hrest, hrparts⟩ := List.forall₂_cons_right_iff.1 hparts
    rw [hrparts]
    cases f? with
    | none => cases hpart.expr
    | some f =>
      obtain rfl := Option.some.inj hpart.expr
      have hsame : Expr.repeated least most (greedy != s.flags.swapGreed) (f.doubled k) =
          (Expr.repeated least most (greedy != r.flags.swapGreed) f).doubled k := by
        rw [h.flags, Expr.repeated_doubled]
      refine ⟨_, rfl, { h with level := ⟨h.level.branches, .cons ⟨?_, ?_⟩ hrest⟩ }⟩
      · exact congrArg some hsame
      · exact Nat.succ_le_succ hpart.depth
  · cases hs

theorem step_close (h : r.Doubled k s) (hs : s.step .close = .ok s') :
    ∃ r', r.step .close = .ok r' ∧ r'.Doubled k s' := by
  have hgroups := h.openGroups
  rw [Reading.step] at hs ⊢
  split at hs
  · next g gs hopen =>
    cases hs
    rw [hopen] at hgroups
    obtain ⟨g', gs', hgroup, hrest, hropen⟩ := List.forall₂_cons_right_iff.1 hgroups
    rw [hropen]
    exact ⟨_, rfl, { h with
      openGroups := hrest
      level := hgroup.close _ _ h.level.whole
      flags := hgroup.flags }⟩
  · cases hs

theorem step {l : Lexeme} (h : r.Doubled k s) (hs : s.step l = .ok s') :
    ∃ r', r.step l = .ok r' ∧ r'.Doubled k s' := by
  have hpush : ∀ {e : Expr} {depth : Nat}, e.doubled k = e →
      r.step l = .ok (r.push e depth) → s.step l = .ok (s.push e depth) →
      ∃ r', r.step l = .ok r' ∧ r'.Doubled k s' := by
    intro e depth he hr hs'
    refine ⟨_, hr, ?_⟩
    rw [hs'] at hs
    obtain rfl := Except.ok.inj hs
    have hpushed := h.push (e := e) (Nat.le_refl depth)
    rwa [he] at hpushed
  cases l with
  | char set depth => exact hpush rfl rfl (by rw [Reading.step, h.flags])
  | dot => exact hpush rfl rfl (by rw [Reading.step, h.flags])
  | lineStart => exact hpush rfl rfl (by rw [Reading.step, h.flags])
  | lineEnd => exact hpush rfl rfl (by rw [Reading.step, h.flags])
  | look l => exact hpush rfl rfl rfl
  | times least most greedy => exact h.step_times hs
  | openCapture name =>
    cases name with
    | none =>
      cases hs
      exact ⟨_, rfl, h.capture h.names⟩
    | some name =>
      rw [Reading.step, h.names] at hs
      rw [Reading.step]
      split at hs
      · cases hs
      · next hname =>
        cases hs
        rw [if_neg hname]
        exact ⟨_, rfl, h.capture rfl⟩
  | openPlain changes =>
    cases hs
    refine ⟨_, rfl, ?_⟩
    rw [h.flags]
    exact h.enter _ none (by simp)
  | setFlags changes =>
    cases hs
    refine ⟨_, rfl, { h with
      flags := by simp only [h.flags]
      level := ⟨h.level.branches, .cons ⟨rfl, Nat.le_refl _⟩ h.level.parts⟩ }⟩
  | close => exact h.step_close hs
  | bar =>
    cases hs
    exact ⟨_, rfl, { h with level := h.level.nextBranch }⟩

theorem foldlM {ls : List Lexeme} (h : r.Doubled k s) (hs : ls.foldlM Reading.step s = .ok s') :
    ∃ r', ls.foldlM Reading.step r = .ok r' ∧ r'.Doubled k s' := by
  induction ls generalizing r s with
  | nil =>
    cases hs
    exact ⟨r, rfl, h⟩
  | cons l ls ih =>
    rw [List.foldlM_cons] at hs ⊢
    obtain ⟨t, ht, hs⟩ := bind_eq_ok.1 hs
    obtain ⟨q, hq, hqt⟩ := h.step ht
    rw [hq, ok_bind]
    exact ih hqt hs

theorem finish {y : Nested} (h : r.Doubled k s) (hs : s.finish = .ok y) :
    ∃ x, r.finish = .ok x ∧ x.Doubled k y := by
  rw [Reading.finish] at hs
  split at hs
  · next hempty =>
    cases hs
    have hgroups := h.openGroups
    rw [List.isEmpty_iff.1 hempty] at hgroups
    refine ⟨r.level.whole, ?_, h.level.whole⟩
    rw [Reading.finish, List.forall₂_nil_right_iff.1 hgroups]
    rfl
  · cases hs

end Reading.Doubled

theorem Reading.doubled_push {r : Reading} (hgroups : ∀ n ∈ r.groups, n ≤ r.count) {d : Nat}
    (he : e.groups = []) :
    Reading.Doubled (r.count + 1)
      { r.push (.group (r.count + 1) e) d with count := r.count + 1 }
      { r.push (.group (r.count + 1) (.group (r.count + 2) e)) (d + 1) with
        count := r.count + 2 } := by
  have hlt : ∀ n ∈ r.groups, n < r.count + 1 := fun n hn => Nat.lt_succ_of_le (hgroups n hn)
  obtain ⟨hopen, hlevel⟩ := List.forall_mem_append.1 hlt
  have hgroup : (Expr.group (r.count + 1) e).doubled (r.count + 1) =
      .group (r.count + 1) (.group (r.count + 2) e) := by
    rw [Expr.doubled, Expr.doubled_of_lt (by simp [he]), Expr.regroup, if_pos rfl]
  refine ⟨List.forall₂_same.2 fun g hg => ?_, ?_, rfl, Nat.le_refl _, rfl, rfl⟩
  · exact OpenGroup.doubled_self fun n hn => hopen n (List.mem_flatMap.2 ⟨g, hg, hn⟩)
  · have hpushed := (Level.doubled_self hlevel).push (e := .group (r.count + 1) e)
      (Nat.le_succ d)
    rwa [hgroup] at hpushed

/-! ### How parentheses are cut -/

theorem lexemes_opens (a : Nat) (h : ∀ x, cs ≠ '?' :: x) :
    lexemes 0 (List.replicate a '(' ++ cs) =
      (lexemes 0 cs).map (List.replicate a (.openCapture none) ++ ·) := by
  induction a with
  | zero =>
    rw [List.replicate_zero, List.nil_append]
    cases lexemes 0 cs <;> rfl
  | succ a ih =>
    have hne : ∀ x, List.replicate a '(' ++ cs ≠ '?' :: x := by
      cases a with
      | zero => exact h
      | succ a => exact fun x => by simp [List.replicate_succ]
    have hread : readLexeme '(' (List.replicate a '(' ++ cs) = _ := readOpening_other hne
    rw [List.replicate_succ, List.cons_append, lexemes_step hread, ih]
    cases lexemes 0 cs <;> rfl

theorem lexemes_closes (b : Nat) (cs : List Char) :
    lexemes 0 (List.replicate b ')' ++ cs) =
      (lexemes 0 cs).map (List.replicate b .close ++ ·) := by
  induction b with
  | zero =>
    rw [List.replicate_zero, List.nil_append]
    cases lexemes 0 cs <;> rfl
  | succ b ih =>
    have hread : readLexeme ')' (List.replicate b ')' ++ cs) =
      .ok (.close, List.replicate b ')' ++ cs) := rfl
    rw [List.replicate_succ, List.cons_append, lexemes_step hread, ih]
    cases lexemes 0 cs <;> rfl

/-! ### A word in parentheses -/

/-- A word with so many parentheses on either side. -/
def wrapped (opens : Nat) (word : List Char) (closes : Nat) : List Lexeme :=
  List.replicate opens (.openCapture none) ++ (word.map fun c => .char (.single c) 0) ++
    List.replicate closes .close

theorem foldlM_wrapped (word : List Char) (r : Reading) :
    ∃ body : Nested, body.expr.groups = [] ∧
      (wrapped 1 word 1).foldlM Reading.step r =
        .ok { r.push (.group (r.count + 1) body.expr) (body.depth + 1) with
          count := r.count + 1 } ∧
      (wrapped 2 word 2).foldlM Reading.step r =
        .ok { r.push (.group (r.count + 1) (.group (r.count + 2) body.expr)) (body.depth + 2) with
          count := r.count + 2 } := by
  obtain ⟨openGroups, level, flags, count, names⟩ := r
  let inside : Level := ⟨[], (word.map fun c => ⟨some (flags.ofSet (.single c)), 0⟩).reverse⟩
  have hinside : ∀ openGroups count, (word.map fun c => Lexeme.char (.single c) 0).foldlM
      Reading.step ⟨openGroups, {}, flags, count, names⟩ =
        .ok ⟨openGroups, inside, flags, count, names⟩ := by
    intro openGroups count
    rw [foldlM_letters, List.append_nil]
  have hgroups : inside.whole.expr.groups = [] := by
    rw [List.eq_nil_iff_forall_not_mem]
    intro n hn
    rw [Level.mem_groups_whole] at hn
    obtain ⟨p, hp, hn⟩ := List.mem_flatMap.1 (List.mem_append.1 hn |>.resolve_left nofun)
    obtain ⟨c, -, rfl⟩ := List.mem_map.1 (List.mem_reverse.1 hp)
    cases hn
  let outer : OpenGroup := ⟨level, flags, some (count + 1)⟩
  let inner : OpenGroup := ⟨{}, flags, some (count + 2)⟩
  have hopen : (List.replicate 1 (.openCapture none)).foldlM Reading.step
      ⟨openGroups, level, flags, count, names⟩ =
        .ok ⟨outer :: openGroups, {}, flags, count + 1, names⟩ := rfl
  have hopen' : (List.replicate 2 (.openCapture none)).foldlM Reading.step
      ⟨openGroups, level, flags, count, names⟩ =
        .ok ⟨inner :: outer :: openGroups, {}, flags, count + 2, names⟩ := rfl
  refine ⟨inside.whole, hgroups, ?_, ?_⟩
  · rw [wrapped, List.foldlM_append, List.foldlM_append, hopen, ok_bind, hinside]
    rfl
  · rw [wrapped, List.foldlM_append, List.foldlM_append, hopen', ok_bind, hinside]
    rfl

/-- What can be read with a word in two pairs of parentheses can be read with it in one. -/
theorem ofLexemes_wrapped {before after : List Lexeme} {word : List Char} {y : Nested}
    (h : Nested.ofLexemes (before ++ wrapped 2 word 2 ++ after) = .ok y) :
    ∃ k x, Nested.ofLexemes (before ++ wrapped 1 word 1 ++ after) = .ok x ∧ x.Doubled k y := by
  obtain ⟨s, hs, hfinish⟩ := bind_eq_ok.1 h
  rw [List.foldlM_append, List.foldlM_append] at hs
  obtain ⟨t, ht, hs⟩ := bind_eq_ok.1 hs
  obtain ⟨r, hr, ht⟩ := bind_eq_ok.1 ht
  obtain ⟨body, hbody, hone, htwo⟩ := foldlM_wrapped word r
  rw [htwo] at ht
  cases ht
  have hgroups : ∀ n ∈ r.groups, n ≤ r.count := fun n hn =>
    (((Reading.groups_foldlM hr).2 n hn).resolve_left List.not_mem_nil).2
  obtain ⟨r', hr', hdoubled⟩ := (Reading.doubled_push hgroups hbody).foldlM hs
  obtain ⟨x, hx, hxy⟩ := hdoubled.finish hfinish
  refine ⟨_, x, ?_, hxy⟩
  rw [Nested.ofLexemes, List.foldlM_append, List.foldlM_append, hr, ok_bind, hone, ok_bind, hr',
    ok_bind, hx]

theorem read_wrapped {cs cs' word : List Char} {before after : List Lexeme}
    (hcs : lexemes 0 cs = .ok (before ++ wrapped 2 word 2 ++ after))
    (hcs' : lexemes 0 cs' = .ok (before ++ wrapped 1 word 1 ++ after)) (h : Expr.read cs = .ok e) :
    Expr.read cs' = .error .tooLarge ∨ ∃ k f, Expr.read cs' = .ok f ∧ e = f.doubled k := by
  -- Without the pair the expression is no larger, in any way but one that its automaton may show.
  rw [Expr.read, hcs, ok_bind] at h
  obtain ⟨y, hy, h⟩ := bind_eq_ok.1 h
  obtain ⟨k, x, hx, hdoubled⟩ := ofLexemes_wrapped hy
  split at h
  · cases h
  · next hdepth =>
    have hshallow : ¬ depthLimit < x.depth := fun hlt =>
      hdepth (Nat.lt_of_lt_of_le hlt hdoubled.depth)
    split at h
    · cases h
    · cases h
      rw [Expr.read, hcs', ok_bind, hx, ok_bind, if_neg hshallow]
      split
      · exact .inl rfl
      · exact .inr ⟨k, x.expr, rfl, hdoubled.expr⟩

/-! ### Parentheses come in pairs -/

/-- Whether a lexeme opens a group, be it one that captures or not. -/
def Lexeme.enters : Lexeme → Bool
  | .openCapture _ => true
  | .openPlain _ => true
  | _ => false

theorem length_openGroups_step {r s : Reading} {l : Lexeme} (h : r.step l = .ok s) :
    s.openGroups.length + (if l = .close then 1 else 0) =
      r.openGroups.length + if l.enters then 1 else 0 := by
  cases l with
  | times least most greedy =>
    rw [Reading.step] at h
    split at h <;> cases h
    rfl
  | openCapture name =>
    cases name with
    | none =>
      cases h
      rfl
    | some name =>
      rw [Reading.step] at h
      split at h <;> cases h
      rfl
  | close =>
    rw [Reading.step] at h
    split at h
    · next hopen =>
      cases h
      rw [hopen]
      rfl
    · cases h
  | _ =>
    cases h
    rfl

theorem length_openGroups_foldlM {ls : List Lexeme} {r s : Reading}
    (h : ls.foldlM Reading.step r = .ok s) :
    s.openGroups.length + ls.count .close = r.openGroups.length + ls.countP Lexeme.enters := by
  induction ls generalizing r with
  | nil =>
    cases h
    rfl
  | cons l ls ih =>
    rw [List.foldlM_cons] at h
    obtain ⟨t, ht, h⟩ := bind_eq_ok.1 h
    have hstep := length_openGroups_step ht
    have hrest := ih h
    rw [List.count_cons, List.countP_cons]
    simp only [beq_iff_eq]
    omega

theorem count_close_of_ofLexemes {ls : List Lexeme} {x : Nested}
    (h : Nested.ofLexemes ls = .ok x) : ls.count .close = ls.countP Lexeme.enters := by
  obtain ⟨r, hr, hfinish⟩ := bind_eq_ok.1 h
  rw [Reading.finish] at hfinish
  split at hfinish
  · next hempty =>
    have hlength := length_openGroups_foldlM hr
    rw [List.isEmpty_iff.1 hempty] at hlength
    simpa using hlength
  · cases hfinish

theorem count_close_of_read {cs : List Char} {ls : List Lexeme} (hls : lexemes 0 cs = .ok ls)
    (h : Expr.read cs = .ok e) : ls.count .close = ls.countP Lexeme.enters := by
  rw [Expr.read, hls, ok_bind] at h
  obtain ⟨x, hx, -⟩ := bind_eq_ok.1 h
  exact count_close_of_ofLexemes hx

theorem count_wrapped (a b : Nat) (uri : List Char) : (wrapped a uri b).count .close = b := by
  simp [wrapped, List.count_replicate, List.count_eq_zero]

theorem countP_wrapped (a b : Nat) (uri : List Char) :
    (wrapped a uri b).countP Lexeme.enters = a := by
  simp [wrapped, List.countP_replicate, Lexeme.enters, List.countP_map]

end Signpost.Regex
