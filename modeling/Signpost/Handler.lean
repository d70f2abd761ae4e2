import Signpost.Context.Change
import Signpost.Progress
import Signpost.Token.Check

/-!
# Handlers

A handler is the part of a route table that its host writes: a program of steps that look at the
context and the tokens of a rule, change them or put a new context in place of the one it was given,
and put questions to the store. What a handler can do to a request is what these steps allow.
-/

namespace Signpost

inductive Handler (α : Type) : Type
  | done (answer : α)
  | fail (e : Error)
  | look (next : Context → List Token → Handler α)
  | change (c : Change) (next : Handler α)
  /-- Puts a new context for a path in place of the one there is. -/
  | renew (path : String) (next : Handler α)
  /-- Gives a token another value. -/
  | setValue (position : Nat) (value : String) (next : Handler α)
  /-- Checks a token against the store; a token that is not there is not valid. -/
  | check (position : Nat) (check : Check) (filter : Where)
      (next : Except StoreError Bool → Handler α)
  /-- Checks a token that the handler has made itself, and has it back. -/
  | examine (t : Token) (check : Check) (filter : Where)
      (next : Except StoreError Bool → Token → Handler α)
  /-- Writes a message into the journal of the request. -/
  | note (message : String) (next : Handler α)

namespace Handler

variable {α β γ : Type}

instance [Inhabited α] : Inhabited (Handler α) := ⟨done default⟩

/-! ## Steps in a row -/

def bind : Handler α → (α → Handler β) → Handler β
  | done answer, f => f answer
  | fail e, _ => fail e
  | look next, f => look fun ctx tokens => (next ctx tokens).bind f
  | change c next, f => change c (next.bind f)
  | renew path next, f => renew path (next.bind f)
  | setValue position value next, f => setValue position value (next.bind f)
  | check position c filter next, f => check position c filter fun answer => (next answer).bind f
  | examine t c filter next, f => examine t c filter fun answer t => (next answer t).bind f
  | note message next, f => note message (next.bind f)

instance : Monad Handler where
  pure := done
  bind := bind

theorem bind_done (h : Handler α) : h.bind done = h := by
  induction h with
  | done | fail => rfl
  | look _ ih => simp only [bind]; congr 1; funext ctx tokens; exact ih ctx tokens
  | check _ _ _ _ ih => simp only [bind]; congr 1; funext answer; exact ih answer
  | examine _ _ _ _ ih => simp only [bind]; congr 1; funext answer t; exact ih answer t
  | change _ _ ih | renew _ _ ih | setValue _ _ _ ih | note _ _ ih => simp only [bind, ih]

theorem bind_assoc (h : Handler α) (f : α → Handler β) (g : β → Handler γ) :
    (h.bind f).bind g = h.bind fun a => (f a).bind g := by
  induction h with
  | done | fail => rfl
  | look _ ih => simp only [bind]; congr 1; funext ctx tokens; exact ih ctx tokens
  | check _ _ _ _ ih => simp only [bind]; congr 1; funext answer; exact ih answer
  | examine _ _ _ _ ih => simp only [bind]; congr 1; funext answer t; exact ih answer t
  | change _ _ ih | renew _ _ ih | setValue _ _ _ ih | note _ _ ih => simp only [bind, ih]

instance : LawfulMonad Handler :=
  LawfulMonad.mk' Handler (fun h => bind_done h) (fun _ _ => rfl) bind_assoc

/-! ## Single steps -/

def context : Handler Context := look fun ctx _ => done ctx

def tokens : Handler (List Token) := look fun _ tokens => done tokens

def apply (c : Change) : Handler Unit := change c (done ())

/-! ## Running -/

/-- The token at a position, from 1 on. -/
def tokenAt? (tokens : List Token) (position : Nat) : Option Token :=
  if position = 0 then none else tokens[position - 1]?

def setTokenAt (tokens : List Token) (position : Nat) (t : Token) : List Token :=
  tokens.set (position - 1) t

def run (store : Store) : Handler α → List Token → Context → Progress α
  | done answer, tokens, ctx => ⟨.ok answer, tokens, ctx⟩
  | fail e, tokens, ctx => ⟨.error e, tokens, ctx⟩
  | look next, tokens, ctx => (next ctx tokens).run store tokens ctx
  | change c next, tokens, ctx => next.run store tokens (ctx.apply c)
  | renew path next, tokens, ctx => next.run store tokens (ctx.renew path)
  | setValue position value next, tokens, ctx =>
    match tokenAt? tokens position with
    | some t => next.run store (setTokenAt tokens position (t.setValue value)) ctx
    | none => next.run store tokens ctx
  | check position c filter next, tokens, ctx =>
    match tokenAt? tokens position with
    | some t =>
      let checked := t.check store c filter ctx
      (next checked.answer).run store (setTokenAt tokens position checked.token) checked.context
    | none => (next (.ok false)).run store tokens ctx
  | examine t c filter next, tokens, ctx =>
    let checked := t.check store c filter ctx
    (next checked.answer checked.token).run store tokens checked.context
  | note message next, tokens, ctx =>
    next.run store tokens { ctx with journal := ctx.journal ++ [message] }

theorem run_bind (store : Store) (h : Handler α) (f : α → Handler β) (tokens : List Token)
    (ctx : Context) :
    (h.bind f).run store tokens ctx
      = (h.run store tokens ctx).andThen fun answer => (f answer).run store := by
  induction h generalizing tokens ctx with
  | done | fail => rfl
  | look _ ih | examine _ _ _ _ ih => exact ih ..
  | change _ _ ih | renew _ _ ih | note _ _ ih => exact ih ..
  | setValue position _ _ ih =>
    simp only [bind, run]
    split <;> exact ih ..
  | check position _ _ _ ih =>
    simp only [bind, run]
    split <;> exact ih ..

end Handler

end Signpost
