import Signpost.Proofs.Number.Binary64
import Signpost.Token.Comparison

/-!
# The order between tokens and texts

The operators of the order all read one answer, how the token lies to the text. They agree with each
other wherever there is such an answer, so everywhere but between two numerals one of which names no
number.
-/

namespace Signpost.Token

variable {t : Token} {other : String}

/-- Both texts are numerals, and one of them names the value that is no number. -/
def Unordered (t : Token) (other : String) : Prop :=
  (Binary64.read? t.text).isSome ∧ (Binary64.read? other).isSome ∧
    (Binary64.NamesNan t.text ∨ Binary64.NamesNan other)

/-- What the operators of an order promise each other. -/
structure Ordered (t : Token) (other : String) : Prop where
  one : [t.compare .lt other, t.compare .gt other,
    t.compare .le other && t.compare .ge other].count true = 1
  le : t.compare .le other = !t.compare .gt other
  ge : t.compare .ge other = !t.compare .lt other
  /-- What equals a text lies neither before it nor behind it. -/
  same : t.value ≠ none → (t.compare .eq other = true ∨ t.compare .identical other = true) →
    t.compare .le other = true ∧ t.compare .ge other = true

theorem text_of_value {value : String} (h : t.value = some value) : t.text = value := by
  rw [text, h]
  rfl

/-! ## How a token lies to a text -/

theorem order?_eq_none_iff : t.order? other = none ↔ t.Unordered other := by
  unfold order? Unordered
  rw [← Binary64.read?_eq_nan_iff, ← Binary64.read?_eq_nan_iff]
  split
  · next a b ha hb =>
    rw [Binary64.compare?_eq_none_iff, ha, hb]
    simp
  · next hnone =>
    refine iff_of_false nofun fun ⟨ha, hb, _⟩ => ?_
    obtain ⟨a, ha⟩ := Option.isSome_iff_exists.1 ha
    obtain ⟨b, hb⟩ := Option.isSome_iff_exists.1 hb
    exact hnone a b ha hb

theorem order?_of_text_eq (h : t.text = other) (hordered : t.order? other ≠ none) :
    t.order? other = some .eq := by
  unfold order? at hordered ⊢
  rw [h] at hordered ⊢
  split
  · next a b ha hb =>
    obtain rfl : a = b := Option.some.inj (ha.symm.trans hb)
    refine Binary64.compare?_self fun hnan => hordered ?_
    rw [ha]
    exact Binary64.compare?_eq_none_iff.2 (.inl hnan)
  · exact congrArg some Std.ReflCmp.compare_self

theorem order?_of_equals {value : String} (hvalue : t.value = some value)
    (h : t.equals other = true) (hordered : t.order? other ≠ none) : t.order? other = some .eq := by
  have htext := text_of_value hvalue
  have hsame : (value == other) = true → t.order? other = some .eq := fun hsame =>
    order?_of_text_eq (htext.trans (eq_of_beq hsame)) hordered
  simp only [equals, hvalue] at h
  split at h
  · split at h
    · next a b ha hb =>
      rw [order?, htext, ha, hb]
      exact eq_of_beq h
    · exact hsame h
  · exact hsame h

/-! ## The operators -/

theorem ordered_of_order? {o : Ordering} (h : t.order? other = some o) : t.Ordered other := by
  constructor
  case one => cases o <;> simp [compare, h]
  case le => cases o <;> simp [compare, h]
  case ge => cases o <;> simp [compare, h]
  case same =>
    intro hvalue hequal
    obtain ⟨value, hvalue⟩ := Option.ne_none_iff_exists'.1 hvalue
    have hordered : t.order? other ≠ none := by simp [h]
    have horder : t.order? other = some .eq := by
      rcases hequal with hequal | hequal
      · exact order?_of_equals hvalue hequal hordered
      · refine order?_of_text_eq ?_ hordered
        rw [text, eq_of_beq hequal]
        rfl
    simp [compare, horder]

/-- The operators of the order are consistent wherever a token and a text are ordered. -/
theorem ordered_iff (t : Token) (other : String) : t.Ordered other ↔ ¬t.Unordered other := by
  rw [← order?_eq_none_iff]
  constructor
  · intro hordered hnone
    have hone := hordered.one
    simp [compare, hnone] at hone
  · intro hsome
    obtain ⟨o, ho⟩ := Option.ne_none_iff_exists'.1 hsome
    exact ordered_of_order? ho

/-- The name of the value that is no number is exactly itself, but lies nowhere to itself. -/
theorem not_ordered_nan : ¬∀ (t : Token) (other : String), t.Ordered other := by
  intro h
  have hle : (Token.new 1 (some "nan") none).compare .le "nan" = false := by decide +kernel
  have hself := (h (.new 1 (some "nan") none) "nan").same (by decide) (.inr (by decide))
  rw [hle] at hself
  exact Bool.noConfusion hself.1

end Signpost.Token
