import Signpost.Proofs.Number.Rounding
import Signpost.Token.Comparison

/-!
# Tokens that are numbers

A token of a numeric kind and some digits are compared as double precision numbers. That tells
numbers below `2 ^ 53` from all others, but not all large numbers from those next to them.
-/

namespace Signpost.Token

open Binary64 (AllDigits digitsValue Confused rounded limit)

variable {t : Token} {other : String} {others : List String}

/-- The kind of the token is numeric and its value is made of digits. -/
structure IsNumber (t : Token) : Prop where
  kind : t.kind.any Kind.isNumeric = true
  digits : AllDigits t.text

/-- The checks for equality go by the numbers that the digits make. -/
structure TellsNumbers (t : Token) (others : List String) : Prop where
  is : ∀ other ∈ others, t.compare .eq other = true ↔ digitsValue t.text = digitsValue other
  isNot : ∀ other ∈ others, t.compare .notEq other = true ↔ digitsValue t.text ≠ digitsValue other
  isIn : t.isIn others = true ↔ ∃ other ∈ others, digitsValue t.text = digitsValue other

theorem IsNumber.value (h : t.IsNumber) : t.value = some t.text := by
  have hempty := h.digits.1
  unfold text at hempty ⊢
  cases hvalue : t.value with
  | none =>
    rw [hvalue] at hempty
    exact absurd rfl hempty
  | some value => rfl

theorem IsNumber.equals_iff (h : t.IsNumber) (hother : AllDigits other) :
    t.equals other = true ↔
      digitsValue t.text = digitsValue other ∨ Confused (digitsValue t.text) (digitsValue other) := by
  simp only [equals, h.value, h.kind, if_true, Binary64.read?_of_allDigits h.digits,
    Binary64.read?_of_allDigits hother, beq_iff_eq]
  exact Binary64.compare?_ofDecimal_iff ..

/-- Equality of tokens is equality of numbers except where numbers are confused, and only numbers
from `2 ^ 53` on are confused: with one another where they differ by less than one part in `2 ^ 52`,
and where both are too large for the format. -/
theorem tellsNumbers_iff (h : t.IsNumber) (hothers : ∀ other ∈ others, AllDigits other) :
    (t.TellsNumbers others ↔
        ∀ other ∈ others, ¬Confused (digitsValue t.text) (digitsValue other)) ∧
      ∀ m n, Confused m n → 2 ^ 53 ≤ m ∧ 2 ^ 53 ≤ n ∧
        (limit ≤ rounded m ∧ limit ≤ rounded n ∨ 2 ^ 52 * (max m n - min m n) ≤ max m n) := by
  refine ⟨⟨fun htells other hmem hconfused => ?_, fun hapart => ?_⟩,
    fun m n hconfused => hconfused.bounds⟩
  · have hequals := (h.equals_iff (hothers other hmem)).2 (.inr hconfused)
    exact hconfused.1 ((htells.is other hmem).1 hequals)
  · have hequals : ∀ other ∈ others, t.equals other = true ↔ digitsValue t.text = digitsValue other := by
      intro other hmem
      rw [h.equals_iff (hothers other hmem), or_iff_left (hapart other hmem)]
    constructor
    case is => exact hequals
    case isNot =>
      intro other hmem
      rw [compare, Bool.not_eq_true', ← Bool.not_eq_true, hequals other hmem]
    case isIn =>
      rw [isIn, List.any_eq_true]
      exact exists_congr fun other => and_congr_right fun hmem => hequals other hmem

/-- A token whose number is the first one that is not read exactly. -/
def largeEntry : Token := .new 1 (some "9007199254740993") (some .entryId)

theorem isNumber_largeEntry : largeEntry.IsNumber := ⟨rfl, by decide +kernel⟩

theorem tellsNumbers_largeEntry : largeEntry.IsNumber ∧
    (∀ other ∈ ["0009007199254740993", "9007199254740995"], AllDigits other) ∧
    largeEntry.TellsNumbers ["0009007199254740993", "9007199254740995"] := by
  have hothers : ∀ other ∈ ["0009007199254740993", "9007199254740995"], AllDigits other := by
    decide +kernel
  have hapart : ∀ other ∈ ["0009007199254740993", "9007199254740995"],
      ¬Confused (digitsValue largeEntry.text) (digitsValue other) := by
    decide +kernel
  exact ⟨isNumber_largeEntry, hothers, (tellsNumbers_iff isNumber_largeEntry hothers).1.2 hapart⟩

/-- It equals the number before it. -/
theorem not_tellsNumbers_largeEntry : largeEntry.IsNumber ∧ AllDigits "9007199254740992" ∧
    ¬largeEntry.TellsNumbers ["9007199254740992"] := by
  have hequal : largeEntry.compare .eq "9007199254740992" = true := by decide +kernel
  have hnumber : digitsValue largeEntry.text ≠ digitsValue "9007199254740992" := by decide +kernel
  exact ⟨isNumber_largeEntry, by decide +kernel,
    fun htells => hnumber ((htells.is _ List.mem_cons_self).1 hequal)⟩

end Signpost.Token
