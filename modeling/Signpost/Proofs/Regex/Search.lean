import Mathlib.Data.List.TakeDrop
import Mathlib.Data.List.TakeWhile
import Signpost.Proofs.Regex.Run
import Signpost.Proofs.Regex.Todo

/-!
# Searches

A search finds a match just where some thread of it has a run to its end, and the marks that it
gives are those of such a run. That it finds nothing else is an invariant of its threads. That it
misses nothing rests on two facts: the lists of tasks met at a place are closed under the moves from
them, and there are so few lists that can come up that the fuel lasts.
-/

namespace Signpost.Regex

variable {text cs : List Char} {i j n : Nat} {t u : Thread} {ts : List Thread} {m m' : List Mark}
  {met : Met} {place : Place} {e : Expr}

/-! ## What is found has a run -/

/-- The thread is one of a search that began at some place. -/
def Started (text : List Char) (e : Expr) (i : Nat) (t : Thread) : Prop :=
  ∃ start ≤ text.length, Run text start ⟨[.expr e], []⟩ i t

theorem mem_settle (h : t ∈ settle (placeAt text i) n ts met) : ∃ s ∈ ts, Run text i s i t := by
  induction n generalizing ts met with
  | zero => simp [settle] at h
  | succ n ih =>
    rcases ts with _ | ⟨s, ts⟩
    · simp [settle] at h
    rw [settle] at h
    split at h
    · obtain ⟨r, hr, hrun⟩ := ih h
      exact ⟨r, List.mem_cons_of_mem _ hr, hrun⟩
    · split at h
      · rcases List.mem_cons.1 h with rfl | h
        · exact ⟨t, List.mem_cons_self, .done⟩
        · obtain ⟨r, hr, hrun⟩ := ih h
          exact ⟨r, List.mem_cons_of_mem _ hr, hrun⟩
      · obtain ⟨r, hr, hrun⟩ := ih h
        rcases List.mem_append.1 hr with hr | hr
        · exact ⟨s, List.mem_cons_self, .move hr hrun⟩
        · exact ⟨r, List.mem_cons_of_mem _ hr, hrun⟩

theorem placeAt_append (pre cs : List Char) :
    placeAt (pre ++ cs) pre.length = ⟨pre.length, pre.getLast?, cs.head?⟩ := by
  simp [placeAt, List.getElem?_append_right, List.head?_eq_getElem?]

/-- The threads of a place before it is settled: those that came from the place before, and a new
one while nothing has been found. -/
def startedThreads (e : Expr) (ts : List Thread) (found : Option (List Mark)) : List Thread :=
  if found.isNone then ts ++ [⟨[.expr e], []⟩] else ts

def settledThreads (text : List Char) (e : Expr) (i : Nat) (ts : List Thread)
    (found : Option (List Mark)) : List Thread :=
  settle (placeAt text i) e.fuel (startedThreads e ts found) Bins.empty

/-- What is found when a place is settled; a thread at its end is preferred to what was found
before. -/
def foundAt (settled : List Thread) (found : Option (List Mark)) : Option (List Mark) :=
  ((settled.dropWhile fun t => !t.todo.isEmpty).head?.map Thread.marks).or found

/-- The threads that are preferred to what is found. -/
def ahead (settled : List Thread) : List Thread := settled.takeWhile fun t => !t.todo.isEmpty

theorem search_nil {pre : List Char} {found : Option (List Mark)} :
    search e pre.length pre.getLast? ts found [] =
      foundAt (settledThreads pre e pre.length ts found) found := by
  have := placeAt_append pre []
  rw [List.append_nil] at this
  rw [search, settledThreads, this, List.span_eq_takeWhile_dropWhile]
  rfl

theorem search_cons {pre cs : List Char} {c : Char} {found : Option (List Mark)} :
    search e pre.length pre.getLast? ts found (c :: cs) =
      let settled := settledThreads (pre ++ c :: cs) e pre.length ts found
      search e (pre ++ [c]).length (pre ++ [c]).getLast?
        ((ahead settled).filterMap (Thread.take? c)) (foundAt settled found) cs := by
  rw [search, settledThreads, placeAt_append, List.span_eq_takeWhile_dropWhile]
  simp [ahead, foundAt, startedThreads]

theorem settledThreads_started (found : Option (List Mark)) (hi : i ≤ text.length)
    (hts : ∀ t ∈ ts, Started text e i t) :
    ∀ t ∈ settledThreads text e i ts found, Started text e i t := by
  intro t ht
  obtain ⟨s, hs, hrun⟩ := mem_settle ht
  have hstarted : Started text e i s := by
    rw [startedThreads] at hs
    split at hs
    · rcases List.mem_append.1 hs with hs | hs
      · exact hts s hs
      · rw [List.mem_singleton.1 hs]
        exact ⟨i, hi, .done⟩
    · exact hts s hs
  obtain ⟨start, hstart, h⟩ := hstarted
  exact ⟨start, hstart, h.trans hrun⟩

theorem foundAt_started {settled : List Thread} {found : Option (List Mark)}
    (hts : ∀ t ∈ settled, Started text e i t)
    (hfound : ∀ marks ∈ found, ∃ j, Started text e j ⟨[], marks⟩) :
    ∀ marks ∈ foundAt settled found, ∃ j, Started text e j ⟨[], marks⟩ := by
  intro marks h
  rw [foundAt, Option.mem_def, Option.or_eq_some_iff] at h
  rcases h with h | ⟨-, h⟩
  · obtain ⟨t, ht, rfl⟩ := Option.map_eq_some_iff.1 h
    have hmem := (List.dropWhile_sublist _).subset (List.mem_of_mem_head? ht)
    have hend := List.head?_dropWhile_not (fun t : Thread => !t.todo.isEmpty) settled
    rw [ht] at hend
    obtain ⟨todo, marks⟩ := t
    obtain rfl : todo = [] := by simpa using hend
    exact ⟨i, hts _ hmem⟩
  · exact hfound marks h

theorem search_sound (pre : List Char) {found : Option (List Mark)}
    (hts : ∀ t ∈ ts, Started (pre ++ cs) e pre.length t)
    (hfound : ∀ marks ∈ found, ∃ j, Started (pre ++ cs) e j ⟨[], marks⟩)
    (h : search e pre.length pre.getLast? ts found cs = some m) :
    ∃ j, Started (pre ++ cs) e j ⟨[], m⟩ := by
  induction cs generalizing pre ts found with
  | nil =>
    rw [List.append_nil] at hts hfound ⊢
    rw [search_nil] at h
    exact foundAt_started (settledThreads_started _ (Nat.le_refl _) hts) hfound m h
  | cons c cs ih =>
    rw [search_cons] at h
    have hsettled := settledThreads_started found (by simp) hts
    have hpre : pre ++ c :: cs = (pre ++ [c]) ++ cs := by simp
    refine hpre ▸ ih _ ?_ (hpre ▸ foundAt_started hsettled hfound) h
    intro t ht
    obtain ⟨s, hs, htake⟩ := List.mem_filterMap.1 ht
    obtain ⟨start, hstart, hrun⟩ := hsettled s ((List.takeWhile_sublist _).subset hs)
    have hc : (pre ++ c :: cs)[pre.length]? = some c := by simp
    rw [← hpre, List.length_append]
    exact ⟨start, hstart, hrun.trans (.take hc htake .done)⟩

/-! ## What has a run is found -/

theorem map_todo_moves (t : Thread) :
    (t.moves place).map Thread.todo = ((Thread.mk t.todo []).moves place).map Thread.todo := by
  -- Marks have no say in where a thread can go.
  obtain ⟨todo, m⟩ := t
  by_cases h : todo = []
  · simp [h, Thread.moves]
  · have := Thread.moves_within (t := ⟨todo, []⟩) place [] m h
    simp only [Thread.within, List.append_nil, List.nil_append] at this
    simp [this, Thread.within]

theorem Run.remark {todo : List Task} (h : Run text i ⟨todo, m⟩ j ⟨[], m'⟩) (marks : List Mark) :
    ∃ marks', Run text i ⟨todo, marks⟩ j ⟨[], marks'⟩ := by
  rw [← List.append_nil todo, Run.append_iff] at h
  obtain ⟨k, new, h, h'⟩ := h
  obtain ⟨rfl, -⟩ := Run.nil_iff.1 h'
  have := h.within [] marks
  simp only [Thread.within, List.append_nil, List.nil_append] at this
  exact ⟨_, this⟩

theorem length_moves_le (place : Place) (t : Thread) : (t.moves place).length ≤ 2 := by
  have hchoose : ∀ greedy more less, ((Thread.choose greedy more less).map
      (Thread.mk · t.marks)).length ≤ 2 := by
    intro greedy more less
    cases greedy <;> simp [Thread.choose]
  obtain ⟨todo, m⟩ := t
  unfold Thread.moves
  split <;> (try split) <;> (try split) <;> first | exact hchoose .. | simp

/-! ### Fuel -/

/-- How many of the lists of tasks have not been met. -/
def fresh (todos : List (List Task)) (met : Met) : Nat :=
  (todos.filter fun todo => !met.contains todo).length

theorem fresh_insert_lt {todos : List (List Task)} {todo : List Task} (hmem : todo ∈ todos)
    (hnew : met.contains todo = false) : fresh todos (met.insert todo) < fresh todos met := by
  have hfilter : (todos.filter fun a => !(met.insert todo).contains a) =
      (todos.filter fun a => !met.contains a).filter fun a => a ≠ todo := by
    rw [List.filter_filter]
    refine List.filter_congr fun a _ => ?_
    rw [Bool.eq_iff_iff]
    simp [← Bool.not_eq_true]
  rw [fresh, hfilter, fresh, List.length_filter_lt_length_iff_exists]
  exact ⟨todo, by simp [hmem, hnew], by simp⟩

/-- Lists of tasks that a search stays within, wherever it is. -/
def Complete (todos : List (List Task)) : Prop :=
  ∀ todo ∈ todos, ∀ next, Follows todo next → next ∈ todos

theorem settle_within {todos : List (List Task)} (hclosed : Complete todos)
    (hts : ∀ t ∈ ts, t.todo ∈ todos) : ∀ t ∈ settle place n ts met, t.todo ∈ todos := by
  induction n generalizing ts met with
  | zero => simp [settle]
  | succ n ih =>
    rcases ts with _ | ⟨s, ts⟩
    · simp [settle]
    have hs := hts s List.mem_cons_self
    have htail : ∀ t ∈ ts, t.todo ∈ todos := fun t h => hts t (List.mem_cons_of_mem _ h)
    rw [settle]
    split
    · exact ih htail
    · split
      · exact List.forall_mem_cons.2 ⟨hs, ih htail⟩
      · refine ih fun t h => ?_
        rcases List.mem_append.1 h with h | h
        · exact hclosed _ hs _ (.move h)
        · exact htail t h

theorem settle_nodup :
    ((settle place n ts met).map Thread.todo).Nodup ∧
      ∀ t ∈ settle place n ts met, met.contains t.todo = false := by
  induction n generalizing ts met with
  | zero => simp [settle]
  | succ n ih =>
    rcases ts with _ | ⟨s, ts⟩
    · simp [settle]
    rw [settle]
    have hinsert : ∀ ts, ∀ t ∈ settle place n ts (met.insert s.todo),
        t.todo ≠ s.todo ∧ met.contains t.todo = false := by
      intro ts t ht
      have := ih.2 t ht
      simpa [← Bool.not_eq_true] using this
    split
    · exact ih
    · next hnew =>
      split
      · rw [List.map_cons, List.nodup_cons]
        have hcons : ∀ t ∈ s :: settle place n ts (met.insert s.todo),
            met.contains t.todo = false :=
          List.forall_mem_cons.2 ⟨by simpa using hnew, fun t ht => (hinsert _ t ht).2⟩
        refine ⟨⟨?_, ih.1⟩, hcons⟩
        intro hmem
        obtain ⟨t, ht, htodo⟩ := List.mem_map.1 hmem
        exact (hinsert _ t ht).1 htodo
      · exact ⟨ih.1, fun t ht => (hinsert _ t ht).2⟩

theorem length_settle_le {todos : List (List Task)} (hclosed : Complete todos)
    (hts : ∀ t ∈ ts, t.todo ∈ todos) : (settle place n ts met).length ≤ todos.length := by
  rw [← List.length_map (f := Thread.todo)]
  refine settle_nodup.1.length_le_of_subset fun todo h => ?_
  obtain ⟨t, ht, rfl⟩ := List.mem_map.1 h
  exact settle_within hclosed hts t ht

/-! ### Settling misses nothing -/

/-- Lists of tasks that hold all that follows from them at a place. -/
def ClosedAt (place : Place) (p : List Task → Prop) : Prop :=
  ∀ todo, p todo → ∀ t ∈ (Thread.mk todo []).moves place, p t.todo

/-- What follows from the lists of tasks that have been met is met or is still to be followed. -/
def Pending (place : Place) (met : Met) (ts : List Thread) : Prop :=
  ∀ todo, met.contains todo = true → ∀ t ∈ (Thread.mk todo []).moves place,
    met.contains t.todo = true ∨ ∃ s ∈ ts, s.todo = t.todo

namespace Pending

variable {s : Thread}

theorem skip (h : Pending place met (s :: ts)) (hmet : met.contains s.todo = true) :
    Pending place met ts := by
  intro todo htodo t ht
  rcases h todo htodo t ht with h | ⟨r, hr, hrt⟩
  · exact .inl h
  · rcases List.mem_cons.1 hr with rfl | hr
    · exact .inl (hrt ▸ hmet)
    · exact .inr ⟨r, hr, hrt⟩

theorem insert (h : Pending place met (s :: ts)) {more : List Thread}
    (hmoves : ∀ t ∈ (Thread.mk s.todo []).moves place, ∃ r ∈ more, r.todo = t.todo) :
    Pending place (met.insert s.todo) (more ++ ts) := by
  intro todo htodo t ht
  rcases (Met.contains_insert _ _ _).1 htodo with rfl | htodo
  · obtain ⟨r, hr, hrt⟩ := hmoves t ht
    exact .inr ⟨r, List.mem_append_left _ hr, hrt⟩
  · rcases h todo htodo t ht with hmet | ⟨r, hr, hrt⟩
    · exact .inl ((Met.contains_insert _ _ _).2 (.inr hmet))
    · rcases List.mem_cons.1 hr with rfl | hr
      · exact .inl ((Met.contains_insert _ _ _).2 (.inl hrt.symm))
      · exact .inr ⟨r, List.mem_append_right _ hr, hrt⟩

end Pending

/-- Closed lists of tasks that hold all that was met and all that the threads have to do, and in
which only those wait that were met or settled. -/
structure Covers (place : Place) (met : Met) (ts settled : List Thread) (p : List Task → Prop) :
    Prop where
  closed : ClosedAt place p
  before : ∀ todo, met.contains todo = true → p todo
  threads : ∀ t ∈ ts, p t.todo
  waiting : ∀ todo, p todo → (Thread.mk todo []).waits = true →
    met.contains todo = true ∨ ∃ t ∈ settled, t.todo = todo

namespace Covers

variable {s : Thread} {settled : List Thread} {p : List Task → Prop}

theorem nil (hpending : Pending place met []) :
    Covers place met [] [] fun todo => met.contains todo = true where
  closed := by
    intro todo htodo t ht
    simpa using hpending todo htodo t ht
  before := fun _ h => h
  threads := by simp
  waiting := fun _ h _ => .inl h

theorem skip (h : Covers place met ts settled p) (hmet : met.contains s.todo = true) :
    Covers place met (s :: ts) settled p where
  closed := h.closed
  before := h.before
  threads := List.forall_mem_cons.2 ⟨h.before _ hmet, h.threads⟩
  waiting := h.waiting

theorem wait (h : Covers place (met.insert s.todo) ts settled p) :
    Covers place met (s :: ts) (s :: settled) p where
  closed := h.closed
  before := fun todo hmet => h.before _ (by simp [hmet])
  threads := List.forall_mem_cons.2 ⟨h.before _ (by simp), h.threads⟩
  waiting := by
    intro todo htodo hw
    rcases h.waiting todo htodo hw with hmet | ⟨t, ht, htt⟩
    · rcases (Met.contains_insert _ _ _).1 hmet with rfl | hmet
      · exact .inr ⟨s, List.mem_cons_self, rfl⟩
      · exact .inl hmet
    · exact .inr ⟨t, List.mem_cons_of_mem _ ht, htt⟩

theorem move (h : Covers place (met.insert s.todo) (s.moves place ++ ts) settled p)
    (hwait : ¬ s.waits = true) : Covers place met (s :: ts) settled p where
  closed := h.closed
  before := fun todo hmet => h.before _ (by simp [hmet])
  threads := List.forall_mem_cons.2 ⟨h.before _ (by simp), fun t ht =>
    h.threads t (List.mem_append_right _ ht)⟩
  waiting := by
    intro todo htodo hw
    rcases h.waiting todo htodo hw with hmet | hsettled
    · rcases (Met.contains_insert _ _ _).1 hmet with rfl | hmet
      · obtain ⟨todo, m⟩ := s
        exact absurd hw hwait
      · exact .inl hmet
    · exact .inr hsettled

end Covers

theorem moves_of_waits {todo : List Task} (h : t.waits = true) (ht : t.todo = todo) :
    (Thread.mk todo []).moves place = [] := by
  subst ht
  obtain ⟨todo, m⟩ := t
  unfold Thread.waits at h
  split at h <;> simp_all [Thread.moves]

theorem settle_complete {todos : List (List Task)} (hclosed : Complete todos)
    (hts : ∀ t ∈ ts, t.todo ∈ todos) (hpending : Pending place met ts)
    (hfuel : ts.length + 2 * fresh todos met < n) :
    ∃ p : List Task → Prop, Covers place met ts (settle place n ts met) p := by
  induction n generalizing ts met with
  | zero => omega
  | succ n ih =>
    rcases ts with _ | ⟨s, ts⟩
    · exact ⟨_, .nil hpending⟩
    have hs := hts s List.mem_cons_self
    have htail : ∀ t ∈ ts, t.todo ∈ todos := fun t h => hts t (List.mem_cons_of_mem _ h)
    rw [List.length_cons] at hfuel
    rw [settle]
    by_cases hmet : met.contains s.todo = true
    · rw [if_pos hmet]
      obtain ⟨p, hp⟩ := ih htail (hpending.skip hmet) (by omega)
      exact ⟨p, hp.skip hmet⟩
    · rw [if_neg hmet]
      -- A list of tasks is met for the first time, which pays for the moves of its thread.
      have hfresh := fresh_insert_lt hs (by simpa using hmet)
      by_cases hwait : s.waits = true
      · rw [if_pos hwait]
        have hpending' : Pending place (met.insert s.todo) ([] ++ ts) :=
          hpending.insert (by simp [moves_of_waits hwait rfl])
        obtain ⟨p, hp⟩ := ih htail hpending' (by omega)
        exact ⟨p, hp.wait⟩
      · rw [if_neg hwait]
        have hmoves : ∀ t ∈ (Thread.mk s.todo []).moves place,
            ∃ r ∈ s.moves place, r.todo = t.todo := by
          intro t ht
          have := List.mem_map_of_mem (f := Thread.todo) ht
          rwa [← map_todo_moves, List.mem_map] at this
        have hnext : ∀ t ∈ s.moves place ++ ts, t.todo ∈ todos := by
          intro t h
          rcases List.mem_append.1 h with h | h
          · exact hclosed _ hs _ (.move h)
          · exact htail t h
        have hlength := length_moves_le place s
        obtain ⟨p, hp⟩ := ih hnext (hpending.insert hmoves) (by rw [List.length_append]; omega)
        exact ⟨p, hp.move hwait⟩

/-! ### Searching misses nothing -/

/-- A thread that stays within lists of tasks that the fuel is enough for. -/
structure Fits (e : Expr) (todos : List (List Task)) (ts : List Thread) : Prop where
  complete : Complete todos
  start : [.expr e] ∈ todos
  fuel : 3 * todos.length + 1 < e.fuel
  todo_mem : ∀ t ∈ ts, t.todo ∈ todos
  length_le : ts.length ≤ todos.length

variable {todos : List (List Task)} {found : Option (List Mark)}

theorem Fits.started (h : Fits e todos ts) : ∀ t ∈ startedThreads e ts found, t.todo ∈ todos := by
  rw [startedThreads]
  split
  · intro t ht
    rcases List.mem_append.1 ht with ht | ht
    · exact h.todo_mem t ht
    · rw [List.mem_singleton.1 ht]
      exact h.start
  · exact h.todo_mem

theorem Fits.next (h : Fits e todos ts) {c : Char} :
    Fits e todos ((ahead (settledThreads text e i ts found)).filterMap (Thread.take? c)) where
  complete := h.complete
  start := h.start
  fuel := h.fuel
  todo_mem := by
    intro t ht
    obtain ⟨s, hs, htake⟩ := List.mem_filterMap.1 ht
    have hmem := settle_within h.complete h.started s ((List.takeWhile_sublist _).subset hs)
    obtain ⟨set, rest, htodo, -, rfl⟩ := Thread.take?_eq_some htake
    rw [htodo] at hmem
    exact h.complete _ hmem _ .take
  length_le := by
    refine Nat.le_trans (List.length_filterMap_le _ _) ?_
    exact Nat.le_trans (List.takeWhile_sublist _).length_le (length_settle_le h.complete h.started)

theorem fresh_le (todos : List (List Task)) (met : Met) : fresh todos met ≤ todos.length :=
  List.length_filter_le _ _

theorem Fits.settled (h : Fits e todos ts) (ht : t ∈ startedThreads e ts found)
    (hrun : Run text i t j ⟨[], m⟩) :
    (∃ s ∈ settledThreads text e i ts found, s.todo = []) ∨
      ∃ s ∈ settledThreads text e i ts found, ∃ c, text[i]? = some c ∧
        ∃ s', s.take? c = some s' ∧ ∃ m', Run text (i + 1) s' j ⟨[], m'⟩ := by
  have hlength : (startedThreads e ts found).length ≤ todos.length + 1 := by
    have := h.length_le
    rw [startedThreads]
    split <;> simp <;> omega
  have hfuel := fresh_le todos Bins.empty
  have hpending : Pending (placeAt text i) Bins.empty (startedThreads e ts found) := by
    simp [Pending]
  obtain ⟨p, hclosed, -, hts, hwait⟩ := settle_complete h.complete h.started hpending
    (n := e.fuel) (by have := h.fuel; omega)
  have hsettled : ∀ todo, p todo → (Thread.mk todo []).waits = true →
      ∃ s ∈ settledThreads text e i ts found, s.todo = todo := by
    intro todo htodo hw
    simpa [settledThreads] using hwait todo htodo hw
  have hp := hts t ht
  clear hts hwait hfuel hlength hpending ht
  generalize hu : (⟨[], m⟩ : Thread) = u at hrun
  induction hrun with
  | done =>
    subst hu
    exact .inl (hsettled [] hp rfl)
  | move hm _ ih =>
    refine ih hclosed hsettled ?_ hu
    have hmem := List.mem_map_of_mem (f := Thread.todo) hm
    rw [map_todo_moves, List.mem_map] at hmem
    obtain ⟨r, hr, hrt⟩ := hmem
    exact hrt ▸ hclosed _ hp r hr
  | @take i j c t t' u hc htake hr =>
    subst hu
    obtain ⟨set, rest, htodo, hset, rfl⟩ := Thread.take?_eq_some htake
    rw [htodo] at hp
    obtain ⟨s, hs, hst⟩ := hsettled _ hp rfl
    obtain ⟨m', hr'⟩ := hr.remark s.marks
    exact .inr ⟨s, hs, c, hc, ⟨rest, s.marks⟩, by simp [Thread.take?, hst, hset], m', hr'⟩

theorem foundAt_isSome_of_found {settled : List Thread} (h : found.isSome = true) :
    (foundAt settled found).isSome = true := by
  simp [foundAt, h]

theorem foundAt_isSome_or_ahead (settled : List Thread) (found : Option (List Mark)) :
    (foundAt settled found).isSome = true ∨
      (∀ s ∈ settled, s.todo ≠ []) ∧ ahead settled = settled := by
  by_cases h : ∀ s ∈ settled, s.todo ≠ []
  · refine .inr ⟨h, ?_⟩
    rw [ahead, List.takeWhile_eq_self_iff]
    simpa using h
  · have hend : (settled.dropWhile fun t => !t.todo.isEmpty) ≠ [] := by
      rw [Ne, List.dropWhile_eq_nil_iff]
      simpa using h
    exact .inl (by simp [foundAt, hend])

/-- What a search is sure to find: something is found, or a thread has a run to its end, or a new
thread will have one. -/
inductive Awaits (text : List Char) (e : Expr) (i : Nat) (ts : List Thread) :
    Option (List Mark) → Prop
  | found (marks : List Mark) : Awaits text e i ts (some marks)
  | thread {found : Option (List Mark)} (t : Thread) (j : Nat) (m : List Mark) (ht : t ∈ ts)
      (hrun : Run text i t j ⟨[], m⟩) : Awaits text e i ts found
  | later {found : Option (List Mark)} (k j : Nat) (m : List Mark) (hi : i ≤ k)
      (hk : k ≤ text.length) (hrun : Takes text e k j m) : Awaits text e i ts found

theorem Awaits.of_isSome (h : found.isSome = true) : Awaits text e i ts found := by
  obtain ⟨marks, rfl⟩ := Option.isSome_iff_exists.1 h
  exact .found marks

def nextThreads (text : List Char) (e : Expr) (i : Nat) (ts : List Thread)
    (found : Option (List Mark)) (c : Char) : List Thread :=
  (ahead (settledThreads text e i ts found)).filterMap (Thread.take? c)

theorem Fits.step (h : Fits e todos ts) (ht : t ∈ startedThreads e ts found)
    (hrun : Run text i t j ⟨[], m⟩) :
    (foundAt (settledThreads text e i ts found) found).isSome = true ∨
      ∃ c, text[i]? = some c ∧ ∃ s ∈ nextThreads text e i ts found c,
        ∃ m', Run text (i + 1) s j ⟨[], m'⟩ := by
  rcases foundAt_isSome_or_ahead (settledThreads text e i ts found) found with hfound | ⟨hgo, hall⟩
  · exact .inl hfound
  · rcases h.settled ht hrun with ⟨s, hs, hend⟩ | ⟨s, hs, c, hc, s', htake, hrun'⟩
    · exact absurd hend (hgo s hs)
    · exact .inr ⟨c, hc, s', List.mem_filterMap.2 ⟨s, by rwa [hall], htake⟩, hrun'⟩

theorem Awaits.next (h : Fits e todos ts) (hw : Awaits text e i ts found) :
    (foundAt (settledThreads text e i ts found) found).isSome = true ∨
      ∃ c, text[i]? = some c ∧ Awaits text e (i + 1) (nextThreads text e i ts found c)
        (foundAt (settledThreads text e i ts found) found) := by
  have hrun : ∀ {t : Thread} {j : Nat} {m : List Mark}, t ∈ startedThreads e ts found →
      Run text i t j ⟨[], m⟩ →
      (foundAt (settledThreads text e i ts found) found).isSome = true ∨
      ∃ c, text[i]? = some c ∧ Awaits text e (i + 1) (nextThreads text e i ts found c)
        (foundAt (settledThreads text e i ts found) found) := by
    intro t j m ht hrun
    rcases h.step ht hrun with hfound | ⟨c, hc, s, hs, m', hrun'⟩
    · exact .inl hfound
    · exact .inr ⟨c, hc, .thread s j m' hs hrun'⟩
  rcases hw with marks | ⟨t, j, m, ht, hr⟩ | ⟨k, j, m, hi, hk, hr⟩
  · exact .inl (foundAt_isSome_of_found rfl)
  · refine hrun ?_ hr
    rw [startedThreads]
    split
    · exact List.mem_append_left _ ht
    · exact ht
  · rcases found with _ | marks
    · rcases Nat.eq_or_lt_of_le hi with rfl | hlt
      · exact hrun (by simp [startedThreads]) hr
      · exact .inr ⟨text[i], List.getElem?_eq_getElem _, .later k j m hlt hk hr⟩
    · exact .inl (foundAt_isSome_of_found rfl)

theorem search_isSome (pre : List Char) (h : Fits e todos ts)
    (hw : Awaits (pre ++ cs) e pre.length ts found) :
    (search e pre.length pre.getLast? ts found cs).isSome = true := by
  induction cs generalizing pre ts found with
  | nil =>
    rw [List.append_nil] at hw
    rw [search_nil]
    rcases hw.next h with hfound | ⟨c, hc, -⟩
    · exact hfound
    · simp at hc
  | cons c cs ih =>
    have hpre : pre ++ c :: cs = (pre ++ [c]) ++ cs := by simp
    rw [search_cons]
    refine ih _ h.next ?_
    rw [← hpre, List.length_append]
    rcases hw.next h with hfound | ⟨d, hd, hnext⟩
    · exact .of_isSome hfound
    · obtain rfl : c = d := by simpa using hd
      exact hnext

/-! ## Matches -/

theorem Fits.ofExpr (e : Expr) : Fits e ([] :: e.todos []) [] where
  complete := by
    intro todo htodo next hnext
    rcases List.mem_cons.1 htodo with rfl | htodo
    · rcases hnext with ⟨hm⟩
      simp [Thread.moves] at hm
    · rcases closed_todos e [] todo htodo next hnext with h | rfl
      · exact List.mem_cons_of_mem _ h
      · exact List.mem_cons_self
  start := List.mem_cons_of_mem _ (e.mem_todos [])
  fuel := by
    have := length_todos_le e []
    rw [List.length_cons, Expr.fuel]
    omega
  todo_mem := by simp
  length_le := by simp

end Signpost.Regex

namespace Signpost.Regex

variable {r : Regex} {text : String}

/-- A match leaves the marks of a run of the whole expression, which is group 0. -/
theorem takes_of_match? {m : Match} (h : match? r text = some m) :
    m.text = text.toList ∧
      ∃ i j, i ≤ text.toList.length ∧ Takes text.toList (.group 0 r.expr) i j m.marks := by
  obtain ⟨marks, hsearch, rfl⟩ := Option.map_eq_some_iff.1 h
  obtain ⟨j, i, hi, hrun⟩ := search_sound [] (by simp) (by simp) hsearch
  exact ⟨rfl, i, j, hi, hrun⟩

theorem isMatch_iff : isMatch r text = true ↔
    ∃ i j marks, i ≤ text.toList.length ∧ Takes text.toList (.group 0 r.expr) i j marks := by
  constructor
  · intro h
    obtain ⟨m, hm⟩ := Option.isSome_iff_exists.1 h
    obtain ⟨-, i, j, hi, hrun⟩ := takes_of_match? hm
    exact ⟨i, j, m.marks, hi, hrun⟩
  · rintro ⟨i, j, marks, hi, hrun⟩
    rw [isMatch, match?, Option.isSome_map]
    exact search_isSome [] (.ofExpr _) (.later i j marks (Nat.zero_le i) hi hrun)

end Signpost.Regex
