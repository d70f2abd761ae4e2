import Signpost.RouteTable

/-!
# Traces

What became of each rule that was tried, and how often.
-/

namespace Signpost

inductive Verdict
  | noMatch
  /-- A token was not valid. -/
  | rejected
  /-- The rule matched, but left no template. -/
  | declined
  | selected
  /-- The handler of the rule answered or redirected. -/
  | emitted
  | notFound
  deriving DecidableEq, Repr, Inhabited

namespace Verdict

def name : Verdict → String
  | noMatch => "no-match"
  | rejected => "rejected"
  | declined => "declined"
  | selected => "selected"
  | emitted => "emitted"
  | notFound => "not-found"

instance : ToString Verdict := ⟨name⟩

/-- Whether no further rule is tried. -/
def isFinal : Verdict → Bool
  | selected | emitted | notFound => true
  | noMatch | rejected | declined => false

end Verdict

structure TraceEntry where
  rule : String
  /-- The regular expression of the rule. -/
  regex : String
  verdict : Verdict
  deriving DecidableEq, Repr, Inhabited

structure Metrics where
  considered : Nat := 0
  matched : Nat := 0
  rejected : Nat := 0
  lookups : Nat := 0
  trace : List TraceEntry := []
  deriving DecidableEq, Repr, Inhabited

namespace Metrics

def record (m : Metrics) (route : Route) (verdict : Verdict) : Metrics where
  considered := m.considered + 1
  matched := if verdict = .noMatch then m.matched else m.matched + 1
  rejected := if verdict = .rejected then m.rejected + 1 else m.rejected
  lookups := m.lookups
  trace := m.trace ++ [⟨route.rule, route.pattern.regex.text, verdict⟩]

end Metrics

end Signpost
