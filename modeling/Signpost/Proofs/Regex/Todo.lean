import Signpost.Regex.Match

/-!
# The lists of tasks of a search

While an expression is matched only so many lists of tasks come up: each part of the expression
stands for one, in front of what is left to do behind it, and each round of a repetition stands for
one more. They are listed here, the list is closed under all that a thread can do, and it is no
longer than the extent of the expression.
-/

namespace Signpost.Regex

/-- A repetition after so many of its copies. -/
def afterCopies (least : Nat) (most : Option Nat) (greedy : Bool) (e : Expr) (k : Nat) : Expr :=
  .times (least - k) (most.map (· - k)) greedy e

/-- The most copies that a repetition counts. -/
def counted (least : Nat) (most : Option Nat) : Nat := max least (most.getD 0)

/-- The lists of tasks that come up while an expression is matched in front of others. -/
def Expr.todos : Expr → List Task → List (List Task)
  | .empty, rest => [.expr .empty :: rest]
  | .char s, rest => [.expr (.char s) :: rest]
  | .look l, rest => [.expr (.look l) :: rest]
  | .group n e, rest =>
    (.expr (.group n e) :: rest) :: (.close n :: rest) :: e.todos (.close n :: rest)
  | .cat a b, rest => (.expr (.cat a b) :: rest) :: (a.todos (.expr b :: rest) ++ b.todos rest)
  | .alt a b, rest => (.expr (.alt a b) :: rest) :: (a.todos rest ++ b.todos rest)
  | .times least most greedy e, rest =>
    (List.range (counted least most + 1)).map
        (fun k => .expr (afterCopies least most greedy e k) :: rest) ++
      (List.range (counted least most)).flatMap
        (fun k => e.todos (.expr (afterCopies least most greedy e (k + 1)) :: rest)) ++
      (.again greedy e :: rest) :: e.todos (.again greedy e :: rest)

/-- What a thread may have to do next, wherever it is. -/
inductive Follows : List Task → List Task → Prop
  | move {place todo m t} : t ∈ (Thread.mk todo m).moves place → Follows todo t.todo
  | take {s todo} : Follows (.expr (.char s) :: todo) todo

/-- Threads do not leave these lists of tasks but for one more. -/
def Closed (todos : List (List Task)) (rest : List Task) : Prop :=
  ∀ todo ∈ todos, ∀ next, Follows todo next → next ∈ todos ∨ next = rest

theorem afterCopies_zero {least : Nat} {most : Option Nat} {greedy : Bool} {e : Expr} :
    afterCopies least most greedy e 0 = .times least most greedy e := by
  cases most <;> simp [afterCopies]

theorem afterCopies_pred {least : Nat} {most : Option Nat} {greedy : Bool} {e : Expr} {k : Nat} :
    .times (least - k - 1) ((most.map (· - k)).map (· - 1)) greedy e =
      afterCopies least most greedy e (k + 1) := by
  cases most <;> simp [afterCopies, Nat.sub_sub]

theorem counted_sub {least : Nat} {most : Option Nat} {k : Nat}
    (h : 0 < counted (least - k) (most.map (· - k))) : k < counted least most := by
  cases most <;> simp only [counted, Option.map_none, Option.map_some, Option.getD_none,
    Option.getD_some] at h ⊢ <;> omega

theorem Expr.mem_todos (e : Expr) (rest : List Task) : .expr e :: rest ∈ e.todos rest := by
  cases e with
  | times least most greedy e =>
    rw [Expr.todos, List.append_assoc]
    refine List.mem_append_left _ (List.mem_map.2 ⟨0, by simp, ?_⟩)
    rw [afterCopies_zero]
  | _ => simp [Expr.todos]

theorem moves_times {least : Nat} {most : Option Nat} {greedy : Bool} {e : Expr}
    {rest : List Task} {m : List Mark} {place : Place} {t : Thread}
    (h : t ∈ (Thread.mk (.expr (.times least most greedy e) :: rest) m).moves place) :
    t.todo = rest ∨ t.todo = .again greedy e :: rest ∨
      t.todo = .expr e :: .again greedy e :: rest ∨
      (0 < counted least most ∧
        t.todo = .expr e :: .expr (.times (least - 1) (most.map (· - 1)) greedy e) :: rest) := by
  have hchoose : ∀ more, t ∈ (Thread.choose greedy more rest).map (Thread.mk · m) →
      t.todo = more ∨ t.todo = rest := by
    intro more h
    cases greedy <;> simp only [Thread.choose, List.map_cons, List.map_nil, List.mem_cons,
      List.not_mem_nil, or_false, Bool.false_eq_true, if_false, if_true] at h <;>
      rcases h with rfl | rfl <;> simp
  rcases least with _ | _ | n <;> rcases most with _ | _ | x
  · by_cases hn : e.nullable = true
    · simp only [Thread.moves, hn, if_true] at h
      rcases hchoose _ h with h | h <;> simp [h]
    · simp only [Thread.moves, hn, if_false, Bool.false_eq_true, List.mem_singleton] at h
      simp [h]
  · simp only [Thread.moves, List.mem_singleton] at h
    simp [h]
  · rcases hchoose _ h with h | h <;> simp [h, counted]
  all_goals
    simp only [Thread.moves, List.mem_singleton] at h
    simp [h, counted]

theorem Closed.mono {todos : List (List Task)} {rest : List Task} (h : Closed todos rest)
    {all : List (List Task)} {last : List Task} (hsub : todos ⊆ all)
    (hrest : rest ∈ all ∨ rest = last) :
    ∀ todo ∈ todos, ∀ next, Follows todo next → next ∈ all ∨ next = last := by
  intro todo htodo next hnext
  rcases h todo htodo next hnext with hmem | rfl
  · exact .inl (hsub hmem)
  · exact hrest

theorem follows_empty {rest next : List Task} (h : Follows (.expr .empty :: rest) next) :
    next = rest := by
  rcases h with ⟨hm⟩
  simp only [Thread.moves, List.mem_singleton] at hm
  rw [hm]

theorem follows_look {l : Look} {rest next : List Task}
    (h : Follows (.expr (.look l) :: rest) next) : next = rest := by
  rcases h with ⟨hm⟩
  simp only [Thread.moves] at hm
  split at hm
  · rw [List.mem_singleton.1 hm]
  · simp at hm

theorem follows_char {s : CharSet} {rest next : List Task}
    (h : Follows (.expr (.char s) :: rest) next) : next = rest := by
  rcases h with ⟨hm⟩ | _
  · simp [Thread.moves] at hm
  · rfl

theorem follows_group {n : Nat} {e : Expr} {rest next : List Task}
    (h : Follows (.expr (.group n e) :: rest) next) : next = .expr e :: .close n :: rest := by
  rcases h with ⟨hm⟩
  simp only [Thread.moves, List.mem_singleton] at hm
  rw [hm]

theorem follows_close {n : Nat} {rest next : List Task} (h : Follows (.close n :: rest) next) :
    next = rest := by
  rcases h with ⟨hm⟩
  simp only [Thread.moves, List.mem_singleton] at hm
  rw [hm]

theorem follows_cat {a b : Expr} {rest next : List Task}
    (h : Follows (.expr (.cat a b) :: rest) next) : next = .expr a :: .expr b :: rest := by
  rcases h with ⟨hm⟩
  simp only [Thread.moves, List.mem_singleton] at hm
  rw [hm]

theorem follows_alt {a b : Expr} {rest next : List Task}
    (h : Follows (.expr (.alt a b) :: rest) next) :
    next = .expr a :: rest ∨ next = .expr b :: rest := by
  rcases h with ⟨hm⟩
  simp only [Thread.moves, List.mem_cons, List.not_mem_nil, or_false] at hm
  rcases hm with rfl | rfl <;> simp

theorem follows_again {greedy : Bool} {e : Expr} {rest next : List Task}
    (h : Follows (.again greedy e :: rest) next) :
    next = .expr e :: .again greedy e :: rest ∨ next = rest := by
  rcases h with ⟨hm⟩
  obtain ⟨todo, htodo, rfl⟩ := List.mem_map.1 hm
  cases greedy <;> simp_all [Thread.choose, or_comm]

/-! ### Repetitions -/

section

variable {least : Nat} {most : Option Nat} {greedy : Bool} {e : Expr} {rest : List Task} {k : Nat}

theorem mem_todos_round (hk : k ≤ counted least most) :
    .expr (afterCopies least most greedy e k) :: rest ∈
      (Expr.times least most greedy e).todos rest := by
  rw [Expr.todos, List.append_assoc]
  exact List.mem_append_left _ (List.mem_map.2 ⟨k, by simp; omega, rfl⟩)

theorem todos_copy_subset (hk : k < counted least most) :
    e.todos (.expr (afterCopies least most greedy e (k + 1)) :: rest) ⊆
      (Expr.times least most greedy e).todos rest := by
  intro todo h
  rw [Expr.todos]
  exact List.mem_append_left _ (List.mem_append_right _
    (List.mem_flatMap.2 ⟨k, by simpa using hk, h⟩))

theorem todos_loop_subset :
    (.again greedy e :: rest) :: e.todos (.again greedy e :: rest) ⊆
      (Expr.times least most greedy e).todos rest := by
  rw [Expr.todos]
  exact List.subset_append_right _ _

theorem closed_times (ih : ∀ rest, Closed (e.todos rest) rest) :
    Closed ((Expr.times least most greedy e).todos rest) rest := by
  have hloop := @todos_loop_subset least most greedy e rest
  have hagain := hloop List.mem_cons_self
  have hbody := hloop (List.mem_cons_of_mem _ (e.mem_todos (.again greedy e :: rest)))
  intro todo h next hn
  conv at h => rw [Expr.todos]
  simp only [List.mem_append, List.mem_map, List.mem_range, List.mem_flatMap, List.mem_cons,
    or_assoc] at h
  rcases h with ⟨k, hk, rfl⟩ | ⟨k, hk, h⟩ | rfl | h
  · rcases hn with ⟨hm⟩
    rcases moves_times hm with h | h | h | ⟨hpos, h⟩
    · exact .inr h
    · exact .inl (h ▸ hagain)
    · exact .inl (h ▸ hbody)
    · rw [afterCopies_pred] at h
      exact .inl (h ▸ todos_copy_subset (counted_sub hpos) (e.mem_todos _))
  · exact (ih _).mono (todos_copy_subset hk) (.inl (mem_todos_round hk)) todo h next hn
  · rcases follows_again hn with rfl | rfl
    · exact .inl hbody
    · exact .inr rfl
  · exact (ih _).mono (fun _ h => hloop (List.mem_cons_of_mem _ h)) (.inl hagain) todo h next hn

end

theorem closed_singleton {todo rest : List Task} (h : ∀ next, Follows todo next → next = rest) :
    Closed [todo] rest := by
  intro todo' htodo next hn
  obtain rfl := List.mem_singleton.1 htodo
  exact .inr (h next hn)

theorem closed_todos (e : Expr) (rest : List Task) : Closed (e.todos rest) rest := by
  induction e generalizing rest with
  | empty => exact closed_singleton fun _ => follows_empty
  | look => exact closed_singleton fun _ => follows_look
  | char => exact closed_singleton fun _ => follows_char
  | group n e ih =>
    have hbody : e.todos (.close n :: rest) ⊆ (Expr.group n e).todos rest :=
      List.subset_cons_of_subset _ (List.subset_cons_self _ _)
    have hclose : .close n :: rest ∈ (Expr.group n e).todos rest :=
      List.mem_cons_of_mem _ List.mem_cons_self
    refine List.forall_mem_cons.2 ⟨fun next hn => ?_, List.forall_mem_cons.2 ⟨fun next hn => ?_, ?_⟩⟩
    · exact .inl (follows_group hn ▸ hbody (e.mem_todos _))
    · exact .inr (follows_close hn)
    · exact (ih _).mono hbody (.inl hclose)
  | cat a b iha ihb =>
    have ha : a.todos (.expr b :: rest) ⊆ (Expr.cat a b).todos rest :=
      List.subset_cons_of_subset _ (List.subset_append_left _ _)
    have hb : b.todos rest ⊆ (Expr.cat a b).todos rest :=
      List.subset_cons_of_subset _ (List.subset_append_right _ _)
    refine List.forall_mem_cons.2 ⟨fun next hn => ?_, List.forall_mem_append.2 ⟨?_, ?_⟩⟩
    · exact .inl (follows_cat hn ▸ ha (a.mem_todos _))
    · exact (iha _).mono ha (.inl (hb (b.mem_todos rest)))
    · exact (ihb _).mono hb (.inr rfl)
  | alt a b iha ihb =>
    have ha : a.todos rest ⊆ (Expr.alt a b).todos rest :=
      List.subset_cons_of_subset _ (List.subset_append_left _ _)
    have hb : b.todos rest ⊆ (Expr.alt a b).todos rest :=
      List.subset_cons_of_subset _ (List.subset_append_right _ _)
    refine List.forall_mem_cons.2 ⟨fun next hn => ?_, List.forall_mem_append.2 ⟨?_, ?_⟩⟩
    · rcases follows_alt hn with rfl | rfl
      · exact .inl (ha (a.mem_todos rest))
      · exact .inl (hb (b.mem_todos rest))
    · exact (iha _).mono ha (.inr rfl)
    · exact (ihb _).mono hb (.inr rfl)
  | times least most greedy e ih => exact closed_times ih

theorem length_flatMap_le {α β : Type} {f : α → List β} {bound : Nat} {l : List α}
    (h : ∀ a, (f a).length ≤ bound) : (l.flatMap f).length ≤ l.length * bound := by
  induction l with
  | nil => simp
  | cons a l ih =>
    have := h a
    simp only [List.flatMap_cons, List.length_append, List.length_cons, Nat.add_mul]
    omega

theorem length_todos_le (e : Expr) (rest : List Task) : (e.todos rest).length ≤ e.extent := by
  induction e generalizing rest with
  | empty | look | char => simp [Expr.todos, Expr.extent]
  | group n e ih =>
    have := ih (.close n :: rest)
    simp only [Expr.todos, List.length_cons, Expr.extent]
    omega
  | cat a b iha ihb =>
    have := iha (.expr b :: rest)
    have := ihb rest
    simp only [Expr.todos, List.length_cons, List.length_append, Expr.extent]
    omega
  | alt a b iha ihb =>
    have := iha rest
    have := ihb rest
    simp only [Expr.todos, List.length_cons, List.length_append, Expr.extent]
    omega
  | times least most greedy e ih =>
    have hcopies : ((List.range (counted least most)).flatMap fun k =>
        e.todos (.expr (afterCopies least most greedy e (k + 1)) :: rest)).length ≤
          counted least most * e.extent := by
      simpa using length_flatMap_le (l := List.range (counted least most)) fun k => ih _
    have hloop := ih (.again greedy e :: rest)
    simp only [Expr.todos, List.length_append, List.length_map, List.length_range,
      List.length_cons, Expr.extent]
    rw [show max least (most.getD 0) = counted least most from rfl, Nat.add_mul, Nat.mul_add]
    omega

end Signpost.Regex
