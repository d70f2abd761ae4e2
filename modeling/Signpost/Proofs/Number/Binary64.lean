import Mathlib.Data.List.TakeDrop
import Mathlib.Data.List.TakeWhile
import Signpost.Number.Binary64

/-!
# What numerals are read as

A numeral is read as a number or as an infinity, and only the name of the value that is no number is
read as that value. Two values lie somewhere to each other unless one of them is no number.
-/

namespace Signpost.Binary64

variable {a b : Binary64} {text : String} {cs : List Char}

theorem compare?_eq_none_iff : a.compare? b = none ↔ a = nan ∨ b = nan := by
  cases a <;> cases b <;> simp [compare?]

theorem compare?_self (h : a ≠ nan) : a.compare? a = some .eq := by
  cases a with
  | nan => exact absurd rfl h
  | infinite | finite => simp [compare?]

/-! ## The value that is no number -/

theorem ofRatio_ne_nan (negative : Bool) (num den : Nat) : ofRatio negative num den ≠ nan := by
  unfold ofRatio
  split
  · nofun
  · dsimp only
    split <;> nofun

theorem ofDecimal_ne_nan (negative : Bool) (n : Nat) (exponent : Int) :
    ofDecimal negative n exponent ≠ nan := by
  unfold ofDecimal
  dsimp only
  split
  · nofun
  split
  · nofun
  split <;> exact ofRatio_ne_nan _ _ _

theorem readUnsigned?_ne_nan (negative : Bool) (cs : List Char) :
    readUnsigned? negative cs ≠ some nan := by
  unfold readUnsigned?
  dsimp only
  split
  all_goals
    split
    · nofun
    · intro h
      obtain ⟨exponent, -, hnumber⟩ := Option.bind_eq_some_iff.1 h
      exact ofDecimal_ne_nan _ _ _ (Option.some.inj hnumber)

/-! ## The parts of a numeral -/

/-- Whether a numeral has a minus sign, and what follows its sign. -/
def splitSign : List Char → Bool × List Char
  | '-' :: cs => (true, cs)
  | '+' :: cs => (false, cs)
  | cs => (false, cs)

/-- What follows the sign: a name, or digits. -/
def readMagnitude? (negative : Bool) (cs : List Char) : Option Binary64 :=
  if cs.map Char.toLower = "inf".toList ∨ cs.map Char.toLower = "infinity".toList then
    some (infinite negative)
  else if cs.map Char.toLower = "nan".toList then some nan
  else readUnsigned? negative cs

theorem read?_eq (text : String) :
    read? text = readMagnitude? (splitSign text.toList).1 (splitSign text.toList).2 := by
  unfold read?
  split
  next negative cs hsign =>
    have hsplit : splitSign text.toList = (negative, cs) := hsign
    have hname : ∀ name, String.ofList (cs.map Char.toLower) = name ↔
        cs.map Char.toLower = name.toList := by
      intro name
      rw [← String.toList_inj, String.toList_ofList]
    rw [hsplit, readMagnitude?]
    split
    · next h => rw [if_pos (.inl ((hname _).1 h))]
    · next h => rw [if_pos (.inr ((hname _).1 h))]
    · next h =>
      rw [(hname _).1 h]
      rfl
    · next hinf hinfinity hnan =>
      rw [if_neg (not_or.2 ⟨mt (hname _).2 hinf, mt (hname _).2 hinfinity⟩),
        if_neg (mt (hname _).2 hnan)]

theorem splitSign_of_head? (hminus : cs.head? ≠ some '-') (hplus : cs.head? ≠ some '+') :
    splitSign cs = (false, cs) := by
  unfold splitSign
  split
  · exact absurd rfl hminus
  · exact absurd rfl hplus
  · rfl

/-- The text is the name of the value that is no number, with a sign or without. -/
def NamesNan (text : String) : Prop :=
  ∃ sign ∈ [[], ['+'], ['-']], ∃ name, text.toList = sign ++ name ∧
    name.map Char.toLower = "nan".toList

theorem namesNan_iff :
    NamesNan text ↔ (splitSign text.toList).2.map Char.toLower = "nan".toList := by
  constructor
  · rintro ⟨sign, hsign, name, htext, hname⟩
    rw [htext]
    rcases List.mem_cons.1 hsign with rfl | hsign
    · have hhead : ∀ c, Char.toLower c ≠ 'n' → name.head? ≠ some c := by
        intro c hc h
        obtain ⟨rest, rfl⟩ := List.head?_eq_some_iff.1 h
        exact hc (List.cons.inj hname).1
      rwa [List.nil_append, splitSign_of_head? (hhead '-' (by decide)) (hhead '+' (by decide))]
    · have hsigned : sign = ['+'] ∨ sign = ['-'] := by simpa using hsign
      rcases hsigned with rfl | rfl <;> exact hname
  · intro h
    unfold splitSign at h
    split at h
    · next name htext => exact ⟨['-'], by simp, name, htext, h⟩
    · next name htext => exact ⟨['+'], by simp, name, htext, h⟩
    · exact ⟨[], by simp, _, rfl, h⟩

theorem read?_eq_nan_iff : read? text = some nan ↔ NamesNan text := by
  rw [read?_eq, namesNan_iff, readMagnitude?]
  split
  · next h => rcases h with h | h <;> simp [h]
  · split
    · next h => exact iff_of_true rfl h
    · next h => exact iff_of_false (readUnsigned?_ne_nan _ _) h

/-! ## Digits -/

/-- The text is made of digits. -/
def AllDigits (text : String) : Prop := text ≠ "" ∧ ∀ c ∈ text.toList, c.isDigit = true

instance (text : String) : Decidable (AllDigits text) :=
  haveI : Decidable (∀ c ∈ text.toList, c.isDigit = true) := List.decidableBAll _ _
  inferInstanceAs (Decidable (_ ∧ _))

/-- The natural number that the digits of a text make. -/
def digitsValue (text : String) : Nat := Nat.ofDigitChars 10 text.toList 0

theorem toLower_of_isDigit {c : Char} (h : c.isDigit = true) : c.toLower = c := by
  rw [Char.isDigit, Bool.and_eq_true, decide_eq_true_eq, decide_eq_true_eq] at h
  exact dif_neg fun hupper => absurd (UInt32.le_trans hupper.1 h.2) (by decide)

theorem readUnsigned?_of_digits (hcs : cs ≠ []) (h : ∀ c ∈ cs, c.isDigit = true) :
    readUnsigned? false cs = some (ofDecimal false (Nat.ofDigitChars 10 cs 0) 0) := by
  have hspan : cs.span Char.isDigit = (cs, []) := by
    rw [List.span_eq_takeWhile_dropWhile, List.takeWhile_eq_self_iff.2 h,
      List.dropWhile_eq_nil_iff.2 h]
  have hfilled : cs.isEmpty ≠ true := by simpa using hcs
  unfold readUnsigned?
  simp only [hspan, List.append_nil, if_neg hfilled]
  rfl

theorem read?_of_allDigits (h : AllDigits text) :
    read? text = some (ofDecimal false (digitsValue text) 0) := by
  obtain ⟨hempty, hdigits⟩ := h
  rw [read?_eq, digitsValue]
  generalize htext : text.toList = cs at hdigits
  have hcs : cs ≠ [] := by
    rintro rfl
    exact hempty (String.toList_eq_nil_iff.1 htext)
  obtain ⟨c, rest, rfl⟩ := List.exists_cons_of_ne_nil hcs
  have hfirst : c.isDigit = true := hdigits c List.mem_cons_self
  have hsign : splitSign (c :: rest) = (false, c :: rest) := by
    refine splitSign_of_head? (fun hc => ?_) (fun hc => ?_) <;>
    · rw [Option.some.inj hc] at hfirst
      cases hfirst
  -- No name begins with a digit.
  have hname : ∀ letter letters, letter.isDigit = false →
      (c :: rest).map Char.toLower ≠ letter :: letters := by
    intro letter letters hletter heq
    have hlower : c.toLower = letter := (List.cons.inj heq).1
    rw [toLower_of_isDigit hfirst] at hlower
    rw [← hlower, hfirst] at hletter
    cases hletter
  rw [hsign, readMagnitude?, if_neg, if_neg, readUnsigned?_of_digits hcs hdigits]
  · exact hname 'n' _ rfl
  · exact not_or.2 ⟨hname 'i' _ rfl, hname 'i' _ rfl⟩

end Signpost.Binary64
