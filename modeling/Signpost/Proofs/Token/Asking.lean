import Signpost.Proofs.Except
import Signpost.Proofs.Token.Checking

/-!
# The questions of tokens

A token whose kind looks something up puts one question to the store, and no other token does. The
tokens of a rule put their questions in order, also after one that the store had no row for, until
the store fails.
-/

namespace Signpost

variable {store : Store} {ctx mid ctx' : Context}

/-! ## Up to the first of a kind -/

section UpTo

variable {α : Type} {p : α → Bool} {a : α} {l l' : List α}

/-- The members of a list up to the first of a kind, and all of them if there is none. -/
def upTo (p : α → Bool) (l : List α) : List α := l.take (l.findIdx p + 1)

theorem upTo_cons : upTo p (a :: l) = a :: if p a then [] else upTo p l := by
  cases h : p a <;> simp [upTo, List.findIdx_cons, h]

theorem upTo_prefix : upTo p l <+: l := List.take_prefix ..

theorem upTo_append_of_none (h : ∀ a ∈ l, p a = false) : upTo p (l ++ l') = l ++ upTo p l' := by
  induction l with
  | nil => rfl
  | cons a l ih =>
    have hrest := ih fun b hb => h b (List.mem_cons_of_mem _ hb)
    rw [List.cons_append, upTo_cons, h a List.mem_cons_self, hrest]
    rfl

theorem upTo_append_of_mem (ha : a ∈ l) (h : p a = true) : upTo p (l ++ l') = upTo p l := by
  have hidx : l.findIdx p < l.length := List.findIdx_lt_length_of_exists ⟨a, ha, h⟩
  rw [upTo, upTo, List.findIdx_append, if_pos hidx, List.take_append_of_le_length hidx]

theorem upTo_eq_self (h : ∀ a ∈ l, p a = false) : upTo p l = l := by
  rw [← List.append_nil l, upTo_append_of_none h]
  rfl

end UpTo

/-! ## Failures of the store -/

namespace Store

/-- How the store fails at a question, if it does. -/
def failure? (store : Store) (call : Call) : Option StoreError :=
  match call.question with
  | .entries => ofAnswer (store.entries call.filter)
  | .categories => ofAnswer (store.categories call.filter)
  | .members => ofAnswer (store.members call.filter)
  | .categoryGroups => ofAnswer (store.categoryGroups call.filter)
where
  ofAnswer {α : Type} : Except StoreError α → Option StoreError
    | .error e => some e
    | .ok _ => none

def fails (store : Store) (call : Call) : Bool := (store.failure? call).isSome

/-- The questions that are put of those that are to be put in order: the first failure is the end. -/
def heard (store : Store) (calls : List Call) : List Call := upTo store.fails calls

def firstFailure? (store : Store) (calls : List Call) : Option StoreError :=
  calls.findSome? store.failure?

variable {calls later : List Call} {e : StoreError}

theorem firstFailure?_append : store.firstFailure? (calls ++ later) =
    (store.firstFailure? calls).or (store.firstFailure? later) :=
  List.findSome?_append

theorem firstFailure?_eq_none :
    store.firstFailure? calls = none ↔ ∀ call ∈ calls, store.fails call = false := by
  simp [firstFailure?, fails]

theorem heard_append_of_none (h : store.firstFailure? calls = none) :
    store.heard (calls ++ later) = calls ++ store.heard later :=
  upTo_append_of_none (firstFailure?_eq_none.1 h)

theorem heard_eq_self (h : store.firstFailure? calls = none) : store.heard calls = calls :=
  upTo_eq_self (firstFailure?_eq_none.1 h)

theorem heard_singleton (store : Store) (call : Call) : store.heard [call] = [call] := by
  rw [heard, upTo_cons]
  split <;> rfl

theorem countP_heard (h : store.firstFailure? calls = none) :
    (store.heard calls).countP (fun call => !store.fails call) = calls.length := by
  rw [heard_eq_self h, List.countP_eq_length]
  intro call hcall
  rw [firstFailure?_eq_none.1 h call hcall]
  rfl

theorem heard_append_of_some (h : store.firstFailure? calls = some e) :
    store.heard (calls ++ later) = store.heard calls := by
  obtain ⟨call, hmem, hcall⟩ := List.exists_of_findSome?_eq_some h
  exact upTo_append_of_mem hmem (Option.isSome_of_eq_some hcall)

theorem heard_of_failure (h : store.firstFailure? calls = some e) :
    ∃ answered call, store.heard calls = answered ++ [call] ∧
      (∀ c ∈ answered, store.fails c = false) ∧ store.failure? call = some e := by
  obtain ⟨answered, call, later, rfl, hcall, hanswered⟩ := List.findSome?_eq_some_iff.1 h
  have hnone : ∀ c ∈ answered, store.fails c = false := fun c hc => by simp [fails, hanswered c hc]
  refine ⟨answered, call, ?_, hnone, hcall⟩
  rw [heard, upTo_append_of_none hnone, upTo_cons, fails, hcall]
  rfl

theorem answered_of_mem_dropLast {call : Call} (h : call ∈ (store.heard calls).dropLast) :
    store.fails call = false := by
  cases hfailure : store.firstFailure? calls with
  | none =>
    rw [heard_eq_self hfailure] at h
    exact firstFailure?_eq_none.1 hfailure _ (List.dropLast_subset _ h)
  | some e =>
    obtain ⟨answered, last, heq, hanswered, -⟩ := heard_of_failure hfailure
    rw [heq, List.dropLast_concat] at h
    exact hanswered _ h

theorem firstFailure?_eq_some_iff : store.firstFailure? calls = some e ↔
    ∃ call, (store.heard calls).getLast? = some call ∧ store.failure? call = some e := by
  cases hfailure : store.firstFailure? calls with
  | none =>
    refine ⟨nofun, fun ⟨call, hlast, hcall⟩ => ?_⟩
    rw [heard_eq_self hfailure] at hlast
    have hnone := firstFailure?_eq_none.1 hfailure call (List.mem_of_getLast? hlast)
    rw [fails, hcall] at hnone
    cases hnone
  | some first =>
    obtain ⟨answered, last, heq, -, hlast⟩ := heard_of_failure hfailure
    simp [heq, hlast]

theorem exists_firstFailure? :
    (∃ e, store.firstFailure? calls = some e) ↔ ∃ call ∈ calls, store.fails call = true := by
  rw [← Option.isSome_iff_exists, firstFailure?, List.findSome?_isSome_iff]
  rfl

theorem firstFailure?_heard (store : Store) (calls : List Call) :
    store.firstFailure? (store.heard calls) = store.firstFailure? calls := by
  cases hfailure : store.firstFailure? calls with
  | none => rw [heard_eq_self hfailure, hfailure]
  | some e =>
    obtain ⟨answered, call, heq, hanswered, hcall⟩ := heard_of_failure hfailure
    rw [heq, firstFailure?_append, firstFailure?_eq_none.2 hanswered, Option.none_or]
    simp [firstFailure?, hcall]

end Store

/-! ## What asking leaves behind -/

/-- What a context has kept of questions that were put to the store: their order, and how many were
answered. -/
structure Context.AfterCalls (store : Store) (put : List Call) (ctx ctx' : Context) : Prop where
  path : ctx'.path = ctx.path
  calls : ctx'.calls = ctx.calls ++ put
  lookups : ctx'.lookups = ctx.lookups + put.countP fun call => !store.fails call

namespace Context.AfterCalls

variable {calls later : List Call}

theorem refl (ctx : Context) : AfterCalls store [] ctx ctx := ⟨rfl, (List.append_nil _).symm, rfl⟩

theorem trans (h : AfterCalls store calls ctx mid) (h' : AfterCalls store later mid ctx') :
    AfterCalls store (calls ++ later) ctx ctx' where
  path := h'.path.trans h.path
  calls := by rw [h'.calls, h.calls, List.append_assoc]
  lookups := by rw [h'.lookups, h.lookups, List.countP_append, Nat.add_assoc]

theorem asked (store : Store) (call : Call) (ctx : Context) :
    AfterCalls store [call] ctx (ctx.asked call !store.fails call) where
  path := rfl
  calls := rfl
  lookups := by cases h : store.fails call <;> simp [Context.asked, h]

theorem of_globals (h : AfterCalls store calls ctx mid) (globals : Names String)
    (hglobals : { ctx' with globals } = { mid with globals }) : AfterCalls store calls ctx ctx' where
  path := (congrArg Context.path hglobals :).trans h.path
  calls := (congrArg Context.calls hglobals :).trans h.calls
  lookups := (congrArg Context.lookups hglobals :).trans h.lookups

end Context.AfterCalls

/-- A step that has some questions to put in order. It ends at the first failure of the store, and
has an answer if there is none. -/
structure Asks {α : Type} (store : Store) (calls : List Call) (a : α) (ctx : Context)
    (answer : Except Error α) (ctx' : Context) : Prop where
  answer : answer = match store.firstFailure? calls with
    | some e => .error (.store e)
    | none => .ok a
  context : ctx.AfterCalls store (store.heard calls) ctx'

namespace Asks

variable {α β : Type} {calls later : List Call} {a : α} {b : β} {e : StoreError}
  {answer : Except Error α} {answer' : Except Error β}

theorem failed_or_answered (h : Asks store calls a ctx answer ctx') :
    (∃ e, store.firstFailure? calls = some e ∧ answer = .error (.store e)) ∨
      (store.firstFailure? calls = none ∧ answer = .ok a) := by
  rw [h.answer]
  cases store.firstFailure? calls with
  | some e => exact .inl ⟨e, rfl, rfl⟩
  | none => exact .inr ⟨rfl, rfl⟩

theorem error_iff (h : Asks store calls a ctx answer ctx') {err : Error} :
    answer = .error err ↔ ∃ e, store.firstFailure? calls = some e ∧ err = .store e := by
  rw [h.answer]
  cases store.firstFailure? calls with
  | none => simp
  | some e => simp [eq_comm]

theorem ok_iff (h : Asks store calls a ctx answer ctx') {a' : α} :
    answer = .ok a' ↔ store.firstFailure? calls = none ∧ a' = a := by
  rw [h.answer]
  cases store.firstFailure? calls with
  | none => simp [eq_comm]
  | some e => simp

theorem map (h : Asks store calls a ctx answer ctx') (f : α → β) :
    Asks store calls (f a) ctx (answer.map f) ctx' where
  answer := by
    rw [h.answer]
    cases store.firstFailure? calls <;> rfl
  context := h.context

theorem nothing (store : Store) (a : α) (ctx : Context) : Asks store [] a ctx (.ok a) ctx :=
  ⟨rfl, .refl ctx⟩

theorem append (h : Asks store calls a ctx answer mid) (hnone : store.firstFailure? calls = none)
    (h' : Asks store later b mid answer' ctx') : Asks store (calls ++ later) b ctx answer' ctx' where
  answer := by rw [Store.firstFailure?_append, hnone, Option.none_or, ← h'.answer]
  context := by
    have hcontext := h.context
    rw [Store.heard_eq_self hnone] at hcontext
    rw [Store.heard_append_of_none hnone]
    exact hcontext.trans h'.context

theorem append_failed (h : Asks store calls a ctx answer ctx')
    (hsome : store.firstFailure? calls = some e) (later : List Call) (b : β) :
    Asks store (calls ++ later) b ctx (.error (.store e)) ctx' where
  answer := by rw [Store.firstFailure?_append, hsome]; rfl
  context := by rw [Store.heard_append_of_some hsome]; exact h.context

theorem andThen {p : Progress α} {f : α → List Token → Context → Progress β}
    (h : Asks store calls a ctx p.answer p.context)
    (hf : ∀ tokens mid, Asks store later b mid (f a tokens mid).answer (f a tokens mid).context) :
    Asks store (calls ++ later) b ctx (p.andThen f).answer (p.andThen f).context := by
  rw [Progress.andThen]
  rcases h.failed_or_answered with ⟨e, hfailure, hanswer⟩ | ⟨hnone, hanswer⟩
  · simp only [hanswer]
    exact h.append_failed hfailure later b
  · simp only [hanswer]
    exact h.append hnone (hf ..)

end Asks

/-! ## The question of a token -/

theorem Kind.failure?_lookup {k : Kind} {l : Lookup} (hl : k.lookup? = some l) (store : Store)
    (filter : Where) :
    store.failure? ⟨l.question, filter⟩ = Store.failure?.ofAnswer (l.ask store filter) := by
  cases k <;> cases hl <;> rfl

namespace Token

variable {t : Token} {ts : List Token}

/-- The question that a token puts to the store: for the rows with its text in the column of its
kind. -/
def call? (t : Token) : Option Call :=
  (t.kind.bind Kind.lookup?).map fun l => ⟨l.question, .only l.column t.text⟩

theorem checkRows_asks {question : Question} {columns : List String} {filter : Where}
    {ask : Where → Except StoreError (List Row)}
    (hask : store.failure? ⟨question, filter⟩ = Store.failure?.ofAnswer (ask filter)) :
    Asks store [⟨question, filter⟩]
      (match ask filter with | .ok rows => !rows.isEmpty | .error _ => false) ctx
      ((t.checkRows question columns ask filter ctx).answer.mapError .store)
      (t.checkRows question columns ask filter ctx).context := by
  have hasked := Context.AfterCalls.asked store ⟨question, filter⟩ ctx
  rw [← Store.heard_singleton, Store.fails] at hasked
  unfold checkRows
  cases hrows : ask filter with
  | error e =>
    rw [hrows, Store.failure?.ofAnswer] at hask
    rw [hask] at hasked
    exact ⟨by simp [Store.firstFailure?, hask], hasked⟩
  | ok rows =>
    rw [hrows, Store.failure?.ofAnswer] at hask
    rw [hask] at hasked
    exact ⟨by cases rows <;> simp [Store.firstFailure?, hask],
      hasked.of_globals ctx.globals (Context.globals_foldl_setGlobal ..)⟩

theorem check_asks (store : Store) (t : Token) (ctx : Context) :
    Asks store t.call?.toList (t.confirmed store) ctx
      ((t.check store .own .empty ctx).answer.mapError .store)
      (t.check store .own .empty ctx).context := by
  rw [check_own, call?, confirmed]
  cases hl : t.kind.bind Kind.lookup? with
  | none => exact .nothing ..
  | some l =>
    obtain ⟨k, -, hk⟩ := Option.bind_eq_some_iff.1 hl
    exact checkRows_asks (k.failure?_lookup hk store _)

theorem checkAll_asks (store : Store) (ts : List Token) (ctx : Context) :
    Asks store (ts.filterMap call?) (ts.all (confirmed store)) ctx (checkAll store ts ctx).answer
      (checkAll store ts ctx).context := by
  induction ts generalizing ctx with
  | nil => exact .nothing ..
  | cons t ts ih =>
    have hfirst := check_asks store t ctx
    have hcalls : (t :: ts).filterMap call? = t.call?.toList ++ ts.filterMap call? := by
      cases h : t.call? <;> simp [h]
    rw [hcalls, checkAll]
    rcases hfirst.failed_or_answered with ⟨e, hfailure, hanswer⟩ | ⟨hnone, hanswer⟩
    · obtain ⟨_, hchecked, heq⟩ := except_mapError_eq_error.1 hanswer
      cases heq
      simp only [hchecked]
      exact hfirst.append_failed hfailure _ _
    · simp only [except_mapError_eq_ok.1 hanswer]
      exact hfirst.append hnone ((ih _).map _)

theorem validate_asks (store : Store) (ts : List Token) (ctx : Context) :
    Asks store (ts.filterMap call?) (ts.all (confirmed store)) ctx (validate store ts ctx).answer
      (validate store ts ctx).context := by
  have hchecked := checkAll_asks store ts ctx
  rw [validate]
  split
  · exact ⟨hchecked.answer, hchecked.context.of_globals ctx.globals rfl⟩
  · exact hchecked

theorem filterMap_call? {p : Pattern} {captures : List (Option String)} (h : p.needsStore = false) :
    (ofCaptures p captures).filterMap call? = [] :=
  List.filterMap_eq_nil_iff.2 fun t ht => by rw [call?, lookup?_of_needsStore h ht]; rfl

end Token

end Signpost
