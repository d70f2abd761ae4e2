import Signpost.Regex.Match

/-!
# Runs of a thread

What a search does to one thread is a run: the thread goes on at its place or takes the next
character, over and over. What an expression takes from a text is said by the runs that begin with
the expression as their only task. A run never looks past its first task or at its marks, so it can
be cut where a task is done, and this gives every kind of expression a law of its own.
-/

namespace Signpost.Regex

/-- The place after so many characters of a text. -/
def placeAt (text : List Char) (i : Nat) : Place := ⟨i, (text.take i).getLast?, text[i]?⟩

/-- A thread comes from one place of a text to another. -/
inductive Run (text : List Char) : Nat → Thread → Nat → Thread → Prop
  | done {i t} : Run text i t i t
  | move {i j t t' u} : t' ∈ t.moves (placeAt text i) → Run text i t' j u → Run text i t j u
  | take {i j c t t' u} :
    text[i]? = some c → t.take? c = some t' → Run text (i + 1) t' j u → Run text i t j u

/-- An expression takes what lies between two places, and leaves marks. -/
def Takes (text : List Char) (e : Expr) (i j : Nat) (marks : List Mark) : Prop :=
  Run text i ⟨[.expr e], []⟩ j ⟨[], marks⟩

variable {text : List Char} {i j k n : Nat} {t u v : Thread} {m m' marks : List Mark}
  {rest : List Task}

namespace Run

theorem trans (h : Run text i t j u) (h' : Run text j u k v) : Run text i t k v := by
  induction h with
  | done => exact h'
  | move hm _ ih => exact .move hm (ih h')
  | take hc ht _ ih => exact .take hc ht (ih h')

theorem le (h : Run text i t j u) : i ≤ j := by
  induction h with
  | done => exact Nat.le_refl _
  | move _ _ ih => exact ih
  | take _ _ _ ih => omega

theorem le_length (h : Run text i t j u) (hi : i ≤ text.length) : j ≤ text.length := by
  induction h with
  | done => exact hi
  | move _ _ ih => exact ih hi
  | take hc _ _ ih => exact ih (List.getElem?_eq_some_iff.1 hc).1

end Run

/-! ## What a thread does not look at -/

namespace Thread

/-- The thread with tasks behind its own, and with marks from before its own. -/
def within (rest : List Task) (m : List Mark) (t : Thread) : Thread :=
  ⟨t.todo ++ rest, t.marks ++ m⟩

theorem map_choose_within {greedy : Bool} (more less : List Task) :
    (choose greedy (more ++ rest) (less ++ rest)).map (⟨·, marks ++ m⟩) =
      ((choose greedy more less).map (Thread.mk · marks)).map (within rest m) := by
  cases greedy <;> simp [choose, within]

theorem moves_within (place : Place) (rest : List Task) (m : List Mark) (h : t.todo ≠ []) :
    (t.within rest m).moves place = (t.moves place).map (within rest m) := by
  obtain ⟨todo, marks⟩ := t
  rcases todo with _ | ⟨task, ts⟩
  · exact absurd rfl h
  rcases task with e | n | ⟨greedy, e⟩
  · cases e with
    | times least most greedy e =>
      rcases least with _ | _ | n <;> rcases most with _ | _ | x
      · by_cases hn : e.nullable = true
        · simpa [moves, within, hn] using
            map_choose_within (.expr e :: .again greedy e :: ts) ts
        · simp [moves, within, hn]
      · simp [moves, within]
      · simpa [moves, within] using
          map_choose_within (.expr e :: .expr (.times 0 (some x) greedy e) :: ts) ts
      all_goals simp [moves, within]
    | look l =>
      by_cases hl : l.holds place.before place.after = true <;> simp [moves, within, hl]
    | _ => simp [moves, within]
  · simp [moves, within]
  · simpa [moves, within] using
      map_choose_within (.expr e :: .again greedy e :: ts) ts

theorem take?_within {c : Char} (h : t.todo ≠ []) :
    (t.within rest m).take? c = (t.take? c).map (within rest m) := by
  obtain ⟨todo, marks⟩ := t
  rcases todo with _ | ⟨task, ts⟩
  · exact absurd rfl h
  rcases task with e | n | ⟨greedy, e⟩
  · cases e with
    | char s => by_cases hs : s.contains c = true <;> simp [take?, within, hs]
    | _ => simp [take?, within]
  all_goals simp [take?, within]

theorem todo_ne_nil_of_move {place : Place} (h : u ∈ t.moves place) : t.todo ≠ [] := by
  intro ht
  simp [moves, ht] at h

theorem take?_eq_some {c : Char} (h : t.take? c = some u) :
    ∃ s rest, t.todo = .expr (.char s) :: rest ∧ s.contains c = true ∧ u = ⟨rest, t.marks⟩ := by
  unfold take? at h
  split at h
  · next s rest htodo =>
    obtain ⟨hs, heq⟩ := Option.ite_none_right_eq_some.1 h
    exact ⟨s, rest, htodo, hs, (Option.some.inj heq).symm⟩
  · cases h

theorem todo_ne_nil_of_take? {c : Char} (h : t.take? c = some u) : t.todo ≠ [] := by
  intro ht
  simp [take?, ht] at h

end Thread

namespace Run

theorem within (rest : List Task) (m : List Mark) (h : Run text i t j u) :
    Run text i (t.within rest m) j (u.within rest m) := by
  induction h with
  | done => exact .done
  | move hm _ ih =>
    refine .move ?_ ih
    rw [Thread.moves_within _ _ _ (Thread.todo_ne_nil_of_move hm)]
    exact List.mem_map_of_mem hm
  | take hc ht _ ih =>
    refine .take hc ?_ ih
    rw [Thread.take?_within (Thread.todo_ne_nil_of_take? ht), ht]
    rfl

theorem split (h : Run text i (t.within rest m) j u) (hu : u.todo = []) :
    ∃ k marks, Run text i t k ⟨[], marks⟩ ∧ Run text k ⟨rest, marks ++ m⟩ j u := by
  generalize hs : t.within rest m = s at h
  induction h generalizing t with
  | @done i s =>
    subst hs
    obtain ⟨todo, marks⟩ := t
    simp only [Thread.within, List.append_eq_nil_iff] at hu
    obtain ⟨rfl, rfl⟩ := hu
    exact ⟨i, marks, .done, .done⟩
  | @move i j s s' u hm hr ih =>
    subst hs
    by_cases hne : t.todo = []
    · obtain ⟨todo, marks⟩ := t
      subst hne
      exact ⟨i, marks, .done, .move hm hr⟩
    · rw [Thread.moves_within _ _ _ hne, List.mem_map] at hm
      obtain ⟨t', ht', rfl⟩ := hm
      obtain ⟨k, marks, h1, h2⟩ := ih hu rfl
      exact ⟨k, marks, .move ht' h1, h2⟩
  | @take i j c s s' u hc ht hr ih =>
    subst hs
    by_cases hne : t.todo = []
    · obtain ⟨todo, marks⟩ := t
      subst hne
      exact ⟨i, marks, .done, .take hc ht hr⟩
    · rw [Thread.take?_within hne, Option.map_eq_some_iff] at ht
      obtain ⟨t', ht', rfl⟩ := ht
      obtain ⟨k, marks, h1, h2⟩ := ih hu rfl
      exact ⟨k, marks, .take hc ht' h1, h2⟩

theorem append_iff (ts : List Task) :
    Run text i ⟨ts ++ rest, m⟩ j ⟨[], m'⟩ ↔
      ∃ k marks, Run text i ⟨ts, []⟩ k ⟨[], marks⟩ ∧
        Run text k ⟨rest, marks ++ m⟩ j ⟨[], m'⟩ := by
  constructor
  · intro h
    exact split (t := ⟨ts, []⟩) h rfl
  · rintro ⟨k, marks, h1, h2⟩
    exact (h1.within _ _).trans h2

theorem expr_iff {e : Expr} :
    Run text i ⟨.expr e :: rest, m⟩ j ⟨[], m'⟩ ↔
      ∃ k marks, Takes text e i k marks ∧ Run text k ⟨rest, marks ++ m⟩ j ⟨[], m'⟩ :=
  append_iff [.expr e]

theorem nil_iff : Run text i ⟨[], m⟩ j ⟨[], m'⟩ ↔ j = i ∧ m' = m := by
  constructor
  · rintro (_ | ⟨hm, -⟩ | ⟨-, ht, -⟩)
    · exact ⟨rfl, rfl⟩
    · exact absurd rfl (Thread.todo_ne_nil_of_move hm)
    · exact absurd rfl (Thread.todo_ne_nil_of_take? ht)
  · rintro ⟨rfl, rfl⟩
    exact .done

theorem moves_iff {task : Task} (h : ∀ s, task ≠ .expr (.char s)) :
    Run text i ⟨task :: rest, m⟩ j ⟨[], m'⟩ ↔
      ∃ t ∈ (Thread.mk (task :: rest) m).moves (placeAt text i), Run text i t j ⟨[], m'⟩ := by
  constructor
  · rintro (_ | ⟨hm, hr⟩ | ⟨-, ht, -⟩)
    · exact ⟨_, hm, hr⟩
    · rcases task with (_ | s | _ | _ | _ | _ | _) | _ | _
      case expr.char => exact absurd rfl (h s)
      all_goals simp [Thread.take?] at ht
  · rintro ⟨t, hm, hr⟩
    exact .move hm hr

theorem close_iff :
    Run text i ⟨.close n :: rest, m⟩ j ⟨[], m'⟩ ↔
      Run text i ⟨rest, ⟨n, false, i⟩ :: m⟩ j ⟨[], m'⟩ := by
  rw [moves_iff (by simp)]
  simp [Thread.moves, placeAt]

end Run

/-! ## What each kind of expression takes -/

section Takes

variable {a b e : Expr} {greedy : Bool}

theorem takes_empty : Takes text .empty i j m ↔ j = i ∧ m = [] := by
  rw [Takes, Run.moves_iff (by simp)]
  simp [Thread.moves, Run.nil_iff]

theorem takes_look {l : Look} :
    Takes text (.look l) i j m ↔
      l.holds (placeAt text i).before (placeAt text i).after ∧ j = i ∧ m = [] := by
  rw [Takes, Run.moves_iff (by simp)]
  by_cases h : l.holds (placeAt text i).before (placeAt text i).after = true
  · simp [Thread.moves, Run.nil_iff, h]
  · simp [Thread.moves, h]

theorem takes_char {s : CharSet} :
    Takes text (.char s) i j m ↔
      ∃ c, text[i]? = some c ∧ s.contains c ∧ j = i + 1 ∧ m = [] := by
  constructor
  · rintro (_ | ⟨hm, -⟩ | ⟨hc, ht, hr⟩)
    · simp [Thread.moves] at hm
    · rename_i c t'
      simp only [Thread.take?, Option.ite_none_right_eq_some, Option.some.injEq] at ht
      obtain ⟨hs, rfl⟩ := ht
      obtain ⟨rfl, rfl⟩ := Run.nil_iff.1 hr
      exact ⟨c, hc, hs, rfl, rfl⟩
  · rintro ⟨c, hc, hs, rfl, rfl⟩
    have htake : (Thread.mk [.expr (.char s)] []).take? c = some ⟨[], []⟩ := by
      simp [Thread.take?, hs]
    exact .take hc htake .done

theorem takes_group :
    Takes text (.group n e) i j m ↔
      ∃ marks, Takes text e i j marks ∧ m = ⟨n, false, j⟩ :: (marks ++ [⟨n, true, i⟩]) := by
  rw [Takes, Run.moves_iff (by simp)]
  simp only [Thread.moves, List.mem_singleton, exists_eq_left, Run.expr_iff, Run.close_iff,
    Run.nil_iff, placeAt]
  constructor
  · rintro ⟨_, marks, h, rfl, rfl⟩
    exact ⟨marks, h, rfl⟩
  · rintro ⟨marks, h, rfl⟩
    exact ⟨j, marks, h, rfl, rfl⟩

theorem run_pair :
    Run text i ⟨[.expr a, .expr b], []⟩ j ⟨[], m⟩ ↔
      ∃ k ma mb, Takes text a i k ma ∧ Takes text b k j mb ∧ m = mb ++ ma := by
  simp only [Run.expr_iff, Run.nil_iff, List.append_nil]
  constructor
  · rintro ⟨k, ma, h, _, mb, h', rfl, rfl⟩
    exact ⟨k, ma, mb, h, h', rfl⟩
  · rintro ⟨k, ma, mb, h, h', rfl⟩
    exact ⟨k, ma, h, j, mb, h', rfl, rfl⟩

theorem takes_cat :
    Takes text (.cat a b) i j m ↔
      ∃ k ma mb, Takes text a i k ma ∧ Takes text b k j mb ∧ m = mb ++ ma := by
  rw [Takes, Run.moves_iff (by simp)]
  simp only [Thread.moves, List.mem_singleton, exists_eq_left, run_pair]

theorem takes_alt :
    Takes text (.alt a b) i j m ↔ Takes text a i j m ∨ Takes text b i j m := by
  rw [Takes, Run.moves_iff (by simp)]
  simp [Thread.moves, Takes]

/-! ### Repetitions -/

/-- So many copies of an expression, one after the other. -/
def Copies (text : List Char) (e : Expr) : (count i j : Nat) → List Mark → Prop
  | 0, i, j, m => j = i ∧ m = []
  | n + 1, i, j, m =>
    ∃ k ma mb, Takes text e i k ma ∧ Copies text e n k j mb ∧ m = mb ++ ma

theorem Thread.mem_choose {more less todo : List Task} :
    todo ∈ Thread.choose greedy more less ↔ todo = more ∨ todo = less := by
  cases greedy <;> simp [Thread.choose, or_comm]

theorem Run.copies_of_within_again {s t u : Thread} (h : Run text i t j u) (hu : u.todo = [])
    (ht : t = s.within [.again greedy e] m) :
    ∃ k ma mb n, Run text i s k ⟨[], ma⟩ ∧ Copies text e n k j mb ∧ u.marks = mb ++ ma ++ m := by
  -- The copy that is being read stands among the tasks in front of the loop, so the induction is
  -- over all of them.
  induction h generalizing s m with
  | done =>
    subst ht
    simp [Thread.within] at hu
  | @move i j t t' u hm hr ih =>
    subst ht
    by_cases hs : s.todo = []
    · obtain ⟨todo, ma⟩ := s
      subst hs
      simp only [Thread.within, List.nil_append, Thread.moves, List.mem_map,
        Thread.mem_choose] at hm
      obtain ⟨_, rfl | rfl, rfl⟩ := hm
      · obtain ⟨k, mb, mc, n, h1, h2, h3⟩ := ih (s := ⟨[.expr e], []⟩) (m := ma ++ m) hu rfl
        exact ⟨i, ma, mc ++ mb, n + 1, .done, ⟨k, mb, mc, h1, h2, rfl⟩, by simp [h3]⟩
      · obtain ⟨todo, m'⟩ := u
        subst hu
        obtain ⟨rfl, rfl⟩ := Run.nil_iff.1 hr
        exact ⟨j, ma, [], 0, .done, ⟨rfl, rfl⟩, by simp⟩
    · rw [Thread.moves_within _ _ _ hs, List.mem_map] at hm
      obtain ⟨s', hs', rfl⟩ := hm
      obtain ⟨k, ma, mb, n, h1, h2⟩ := ih hu rfl
      exact ⟨k, ma, mb, n, .move hs' h1, h2⟩
  | @take i j c t t' u hc ht' hr ih =>
    subst ht
    by_cases hs : s.todo = []
    · simp [Thread.within, hs, Thread.take?] at ht'
    · rw [Thread.take?_within hs, Option.map_eq_some_iff] at ht'
      obtain ⟨s', hs', rfl⟩ := ht'
      obtain ⟨k, ma, mb, n, h1, h2⟩ := ih hu rfl
      exact ⟨k, ma, mb, n, .take hc hs' h1, h2⟩

theorem Copies.run_again {n : Nat} (h : Copies text e n i j m) :
    Run text i ⟨[.again greedy e], []⟩ j ⟨[], m⟩ := by
  induction n generalizing i m with
  | zero =>
    obtain ⟨rfl, rfl⟩ := h
    refine .move (List.mem_map_of_mem (Thread.mem_choose.2 (.inr rfl))) ?_
    exact .done
  | succ n ih =>
    obtain ⟨k, ma, mb, h1, h2, rfl⟩ := h
    refine .move (List.mem_map_of_mem (Thread.mem_choose.2 (.inl rfl))) ?_
    refine Run.expr_iff.2 ⟨k, ma, h1, ?_⟩
    simpa [Thread.within] using (ih h2).within [] ma

theorem run_again_iff :
    Run text i ⟨[.again greedy e], []⟩ j ⟨[], m⟩ ↔ ∃ n, Copies text e n i j m := by
  constructor
  · intro h
    obtain ⟨k, ma, mb, n, h1, h2, hm⟩ := h.copies_of_within_again (s := ⟨[], []⟩) (m := []) rfl rfl
    obtain ⟨rfl, rfl⟩ := Run.nil_iff.1 h1
    obtain rfl : m = mb := by simpa using hm
    exact ⟨n, h2⟩
  · rintro ⟨n, h⟩
    exact h.run_again

theorem run_choose {more : List Task} :
    (∃ t ∈ (Thread.choose greedy more []).map (Thread.mk · []), Run text i t j ⟨[], m⟩) ↔
      Run text i ⟨more, []⟩ j ⟨[], m⟩ ∨ j = i ∧ m = [] := by
  rw [← Run.nil_iff]
  simp only [List.mem_map, Thread.mem_choose]
  constructor
  · rintro ⟨_, ⟨_, rfl | rfl, rfl⟩, h⟩
    · exact .inl h
    · exact .inr h
  · rintro (h | h)
    · exact ⟨_, ⟨_, .inl rfl, rfl⟩, h⟩
    · exact ⟨_, ⟨_, .inr rfl, rfl⟩, h⟩

theorem run_expr_again :
    Run text i ⟨[.expr e, .again greedy e], []⟩ j ⟨[], m⟩ ↔ ∃ n, Copies text e (n + 1) i j m := by
  rw [Run.expr_iff]
  constructor
  · rintro ⟨k, ma, h, h'⟩
    obtain ⟨l, mb, h1, h2⟩ := (Run.append_iff [.again greedy e]).1 h'
    obtain ⟨rfl, rfl⟩ := Run.nil_iff.1 h2
    obtain ⟨n, h1⟩ := run_again_iff.1 h1
    exact ⟨n, k, ma, mb, h, h1, by simp⟩
  · rintro ⟨n, k, ma, mb, h, h', rfl⟩
    refine ⟨k, ma, h, ?_⟩
    simpa [Thread.within] using h'.run_again.within [] ma

theorem exists_copies {p : Nat → Prop} :
    (∃ n, p n ∧ Copies text e n i j m) ↔
      (∃ n, p (n + 1) ∧ Copies text e (n + 1) i j m) ∨ p 0 ∧ j = i ∧ m = [] := by
  constructor
  · rintro ⟨_ | n, hp, h⟩
    · exact .inr ⟨hp, h⟩
    · exact .inl ⟨n, hp, h⟩
  · rintro (⟨n, hp, h⟩ | ⟨hp, h⟩)
    · exact ⟨n + 1, hp, h⟩
    · exact ⟨0, hp, h⟩

theorem takes_atMost {x : Nat} :
    Takes text (.times 0 (some x) greedy e) i j m ↔ ∃ n, n ≤ x ∧ Copies text e n i j m := by
  induction x generalizing i m with
  | zero =>
    rw [Takes, Run.moves_iff (by simp)]
    simp [Thread.moves, Run.nil_iff, Copies]
  | succ x ih =>
    rw [Takes, Run.moves_iff (by simp), Thread.moves.eq_def]
    simp only [run_choose, run_pair, ih]
    rw [exists_copies (p := (· ≤ x + 1))]
    constructor
    · rintro (⟨k, ma, mb, h, ⟨n, hn, h'⟩, rfl⟩ | h)
      · exact .inl ⟨n, by omega, k, ma, mb, h, h', rfl⟩
      · exact .inr ⟨by omega, h⟩
    · rintro (⟨n, hn, k, ma, mb, h, h', rfl⟩ | ⟨-, h⟩)
      · exact .inl ⟨k, ma, mb, h, ⟨n, by omega, h'⟩, rfl⟩
      · exact .inr h

theorem takes_anyNumber :
    Takes text (.times 0 none greedy e) i j m ↔ ∃ n, Copies text e n i j m := by
  rw [Takes, Run.moves_iff (by simp), Thread.moves.eq_def]
  by_cases hn : e.nullable = true
  · simp only [hn, if_true, run_choose, run_expr_again]
    simpa using (exists_copies (p := fun _ => True)).symm
  · simp only [hn, if_false, Bool.false_eq_true, List.mem_singleton, exists_eq_left, run_again_iff]

theorem takes_atLeast {x : Nat} :
    Takes text (.times (x + 1) none greedy e) i j m ↔ ∃ n, x + 1 ≤ n ∧ Copies text e n i j m := by
  rw [exists_copies (p := (x + 1 ≤ ·))]
  simp only [Nat.add_le_add_iff_right, Nat.le_zero, Nat.add_one_ne_zero, false_and, or_false]
  induction x generalizing i m with
  | zero =>
    rw [Takes, Run.moves_iff (by simp)]
    simp only [Thread.moves, List.mem_singleton, exists_eq_left, run_expr_again, Nat.zero_le,
      true_and]
  | succ x ih =>
    rw [Takes, Run.moves_iff (by simp), Thread.moves.eq_def]
    simp only [List.mem_singleton, exists_eq_left, run_pair, Option.map_none, ih]
    constructor
    · rintro ⟨k, ma, mb, h, ⟨n, hn, h'⟩, rfl⟩
      exact ⟨n + 1, by omega, k, ma, mb, h, h', rfl⟩
    · rintro ⟨_ | n, hn, k, ma, mb, h, h', rfl⟩
      · omega
      · exact ⟨k, ma, mb, h, ⟨n, by omega, h'⟩, rfl⟩

theorem takes_between {x y : Nat} :
    Takes text (.times x (some y) greedy e) i j m ↔
      ∃ n, x ≤ n ∧ n ≤ max x y ∧ Copies text e n i j m := by
  induction x generalizing y i m with
  | zero => simp only [takes_atMost, Nat.zero_le, true_and, Nat.zero_max]
  | succ x ih =>
    rw [Takes, Run.moves_iff (by simp), Thread.moves.eq_def]
    simp only [List.mem_singleton, exists_eq_left, run_pair, Option.map_some, ih]
    constructor
    · rintro ⟨k, ma, mb, h, ⟨n, hn, hn', h'⟩, rfl⟩
      exact ⟨n + 1, by omega, by omega, k, ma, mb, h, h', rfl⟩
    · rintro ⟨_ | n, hn, hn', h⟩
      · omega
      · obtain ⟨k, ma, mb, h, h', rfl⟩ := h
        exact ⟨k, ma, mb, h, ⟨n, by omega, by omega, h'⟩, rfl⟩

theorem takes_exactly {x : Nat} :
    Takes text (.times x (some x) greedy e) i j m ↔ Copies text e x i j m := by
  rw [takes_between, Nat.max_self]
  constructor
  · rintro ⟨n, hn, hn', h⟩
    rwa [Nat.le_antisymm hn hn']
  · intro h
    exact ⟨x, Nat.le_refl x, Nat.le_refl x, h⟩

theorem takes_times (least : Nat) (most : Option Nat) (greedy : Bool) :
    ∃ p : Nat → Prop, ∀ text e i j m,
      Takes text (.times least most greedy e) i j m ↔ ∃ n, p n ∧ Copies text e n i j m := by
  rcases most with _ | y
  · rcases least with _ | x
    · exact ⟨fun _ => True, fun text e i j m => by simp only [takes_anyNumber, true_and]⟩
    · exact ⟨fun n => x + 1 ≤ n, fun text e i j m => takes_atLeast⟩
  · exact ⟨fun n => least ≤ n ∧ n ≤ max least y, fun text e i j m => by
      simp only [takes_between, and_assoc]⟩

theorem copies_of_takes_times {least : Nat} {most : Option Nat}
    (h : Takes text (.times least most greedy e) i j m) : ∃ n, Copies text e n i j m := by
  obtain ⟨p, hp⟩ := takes_times least most greedy
  obtain ⟨n, -, h⟩ := (hp text e i j m).1 h
  exact ⟨n, h⟩

end Takes

end Signpost.Regex
