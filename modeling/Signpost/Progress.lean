import Signpost.Error
import Signpost.Token.Basic

/-!
# Progress

Every step of routing works on the tokens of a rule and on the context of the request, and may fail.
What it has done up to then stays done.
-/

namespace Signpost

/-- What a step leaves behind, whether it has an answer or failed. -/
structure Progress (α : Type) where
  answer : Except Error α
  tokens : List Token
  context : Context

namespace Progress

variable {α β : Type}

/-- Goes on from an answer; after a failure nothing more is done. -/
def andThen (p : Progress α) (f : α → List Token → Context → Progress β) : Progress β :=
  match p.answer with
  | .ok answer => f answer p.tokens p.context
  | .error e => ⟨.error e, p.tokens, p.context⟩

end Progress

end Signpost
