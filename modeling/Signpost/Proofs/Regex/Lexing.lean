import Mathlib.Data.List.TakeDrop
import Mathlib.Data.List.TakeWhile
import Signpost.Proofs.Except
import Signpost.Regex.Reading

/-!
# Readers of lexemes

Every reader leaves a rest of the text that it was given, and what it reads does not depend on what
follows if that begins with a parenthesis. So a text that is cut into lexemes by itself is cut in
the same way in front of a parenthesis.
-/

namespace Signpost.Regex

variable {α β : Type} {cs rest tail : List Char} {c : Char}

/-- What may follow a text without being mixed up with it: it begins with a parenthesis. -/
def Parted (tail : List Char) : Prop := ∃ t, tail = '(' :: t ∨ tail = ')' :: t

/-- A reader leaves a rest of its text, and a parenthesis behind the text changes nothing. -/
def Reads (f : List Char → Except ReadError (α × List Char)) : Prop :=
  ∀ ⦃cs a rest⦄, f cs = .ok (a, rest) →
    rest <:+ cs ∧ ∀ tail, Parted tail → f (cs ++ tail) = .ok (a, rest ++ tail)

theorem Parted.ne_cons {d : Char} (h : Parted tail) (hd : d ≠ '(' ∧ d ≠ ')')
    (hne : ∀ x, cs ≠ d :: x) : ∀ x, cs ++ tail ≠ d :: x := by
  intro x hx
  rcases cs with _ | ⟨c, cs⟩
  · obtain ⟨t, rfl | rfl⟩ := h
    · exact hd.1 (List.cons.inj hx).1.symm
    · exact hd.2 (List.cons.inj hx).1.symm
  · exact hne cs (congrArg (· :: cs) (List.cons.inj hx).1)

/-! ## Stretches of a text -/

theorem takeWhile_append_parted (cs : List Char) {p : Char → Bool}
    (hp : p '(' = false ∧ p ')' = false) (h : Parted tail) :
    (cs ++ tail).takeWhile p = cs.takeWhile p := by
  induction cs with
  | nil => obtain ⟨t, rfl | rfl⟩ := h <;> simp [hp]
  | cons c cs ih => by_cases hc : p c = true <;> simp_all

theorem dropWhile_append_parted (cs : List Char) {p : Char → Bool}
    (hp : p '(' = false ∧ p ')' = false) (h : Parted tail) :
    (cs ++ tail).dropWhile p = cs.dropWhile p ++ tail := by
  induction cs with
  | nil => obtain ⟨t, rfl | rfl⟩ := h <;> simp [hp]
  | cons c cs ih => by_cases hc : p c = true <;> simp_all

theorem span_append_parted (cs : List Char) {p : Char → Bool}
    (hp : p '(' = false ∧ p ')' = false) (h : Parted tail) :
    (cs ++ tail).span p = ((cs.span p).1, (cs.span p).2 ++ tail) := by
  simp only [List.span_eq_takeWhile_dropWhile, takeWhile_append_parted _ hp h,
    dropWhile_append_parted _ hp h]

theorem span_append_of_stopped {p : Char → Bool} {front : List Char}
    (h : cs.span p = (front, c :: rest)) (tail : List Char) :
    (cs ++ tail).span p = (front, c :: (rest ++ tail)) := by
  simp only [List.span_eq_takeWhile_dropWhile, Prod.mk.injEq] at h ⊢
  induction cs generalizing front with
  | nil => simp at h
  | cons d cs ih => by_cases hd : p d = true <;> simp_all

/-! ## Numbers and repetitions -/

theorem isBlank_paren : Unicode.isBlank '(' = false ∧ Unicode.isBlank ')' = false := by decide

theorem reads_count : Reads readCount := by
  intro cs n rest h
  unfold readCount at h ⊢
  simp only [List.span_eq_takeWhile_dropWhile] at h ⊢
  have hsuffix : ((cs.dropWhile Unicode.isBlank).dropWhile Char.isDigit).dropWhile Unicode.isBlank
      <:+ cs :=
    ((List.dropWhile_suffix _).trans (List.dropWhile_suffix _)).trans (List.dropWhile_suffix _)
  have hdigit : Char.isDigit '(' = false ∧ Char.isDigit ')' = false := by decide
  have happend : ∀ tail, Parted tail → _ := fun tail ht =>
    And.intro (takeWhile_append_parted (cs.dropWhile Unicode.isBlank) hdigit ht)
      (dropWhile_append_parted (cs.dropWhile Unicode.isBlank) hdigit ht)
  split at h
  · cases h
    refine ⟨hsuffix, fun tail ht => ?_⟩
    rw [dropWhile_append_parted _ isBlank_paren ht, (happend tail ht).1, (happend tail ht).2,
      dropWhile_append_parted _ isBlank_paren ht, if_pos ‹_›]
  · split at h
    · cases h
      refine ⟨hsuffix, fun tail ht => ?_⟩
      rw [dropWhile_append_parted _ isBlank_paren ht, (happend tail ht).1, (happend tail ht).2,
        dropWhile_append_parted _ isBlank_paren ht, if_neg ‹_›, if_pos ‹_›]
    · cases h

theorem readGreed_suffix (least : Nat) (most : Option Nat) (cs : List Char) :
    (readGreed least most cs).2 <:+ cs := by
  unfold readGreed
  split
  · exact List.suffix_cons _ _
  · exact List.suffix_refl _

theorem readGreed_append (least : Nat) (most : Option Nat) (h : Parted tail) :
    readGreed least most (cs ++ tail) =
      ((readGreed least most cs).1, (readGreed least most cs).2 ++ tail) := by
  rcases cs with _ | ⟨c, cs⟩
  · obtain ⟨t, rfl | rfl⟩ := h <;> rfl
  · by_cases hc : c = '?'
    · subst hc
      rfl
    · unfold readGreed
      split <;> simp_all

theorem reads_greed (least : Nat) (most : Option Nat) :
    Reads fun cs => .ok (readGreed least most cs) := by
  intro cs a rest h
  have h' : readGreed least most cs = (a, rest) := Except.ok.inj h
  have hsuffix := readGreed_suffix least most cs
  rw [h'] at hsuffix
  refine ⟨hsuffix, fun tail ht => ?_⟩
  simp only [readGreed_append least most ht, h']

theorem Reads.after {f : List Char → Except ReadError (α × List Char)} (hf : Reads f) {a : α}
    {text : List Char} (hsuf : cs <:+ text) (h : f cs = .ok (a, rest)) :
    rest <:+ text ∧ ∀ tail, Parted tail → f (cs ++ tail) = .ok (a, rest ++ tail) :=
  ⟨(hf h).1.trans hsuf, (hf h).2⟩

theorem reads_braces : Reads readBraces := by
  intro text l rest h
  unfold readBraces at h ⊢
  obtain ⟨⟨least, cs⟩, hcount, h⟩ := bind_eq_ok.1 h
  obtain ⟨hsuf, happ⟩ := reads_count hcount
  simp only at h
  split at h
  · obtain ⟨hrest, hgreed⟩ := (reads_greed _ _).after ((List.suffix_cons _ _).trans hsuf) h
    refine ⟨hrest, fun tail ht => ?_⟩
    rw [happ tail ht]
    exact hgreed tail ht
  · obtain ⟨hrest, hgreed⟩ := (reads_greed _ _).after
      (((List.suffix_cons _ _).trans (List.suffix_cons _ _)).trans hsuf) h
    refine ⟨hrest, fun tail ht => ?_⟩
    rw [happ tail ht]
    exact hgreed tail ht
  · next n cs hne =>
    obtain ⟨⟨most, cs'⟩, hcount', h⟩ := bind_eq_ok.1 h
    obtain ⟨hsuf', happ'⟩ := reads_count.after ((List.suffix_cons _ _).trans hsuf) hcount'
    have hbrace : ∀ x, cs ≠ '}' :: x := hne
    split at h
    · next m cs2 heq =>
      obtain ⟨rfl, rfl⟩ := Prod.mk.inj heq
      split at h
      · next hle =>
        obtain ⟨hrest, hgreed⟩ := (reads_greed _ _).after ((List.suffix_cons _ _).trans hsuf') h
        refine ⟨hrest, fun tail ht => ?_⟩
        rw [happ tail ht, ok_bind]
        simp only [List.cons_append]
        split
        · next heq => simp at heq
        · next heq => exact absurd (List.cons.inj heq).2 (ht.ne_cons (by decide) hbrace _)
        · next hn heq =>
          cases hn
          obtain ⟨-, rfl⟩ := List.cons.inj heq
          rw [happ' tail ht, ok_bind]
          simp only [List.cons_append, if_pos hle]
          exact hgreed tail ht
        · simp_all
      · cases h
    · cases h
  · cases h

/-! ## Escapes -/

theorem isHexDigit_paren : Numeral.isHexDigit '(' = false ∧ Numeral.isHexDigit ')' = false := by
  decide

theorem Reads.map {f : List Char → Except ReadError (α × List Char)} (hf : Reads f) (g : α → β) :
    Reads fun cs => (f cs).map fun r => (g r.1, r.2) := by
  intro cs b rest h
  obtain ⟨⟨a, rest'⟩, hcs, heq⟩ := except_map_eq_ok.1 h
  obtain ⟨rfl, rfl⟩ := Prod.mk.inj heq
  obtain ⟨hsuf, happ⟩ := hf hcs
  exact ⟨hsuf, fun tail ht => by simp only [happ tail ht]; rfl⟩

theorem readCode_digits {width : Nat} (h : ∀ x, cs ≠ '{' :: x) :
    readCode width cs =
      if (cs.take width).length = width ∧ (cs.take width).all Numeral.isHexDigit then
        match Numeral.charOfCode? (Numeral.value 16 (cs.take width)) with
        | some c => .ok (c, cs.drop width)
        | none => .error .badEscape
      else .error .badEscape := by
  unfold readCode
  split
  · next x => exact absurd rfl (h x)
  · rfl

theorem reads_code (width : Nat) : Reads (readCode width) := by
  intro cs c rest h
  by_cases hbrace : ∃ x, cs = '{' :: x
  · obtain ⟨cs, rfl⟩ := hbrace
    simp only [readCode] at h ⊢
    split at h
    · cases h
    · next digits rest' hne hspan =>
      have hsuf : '}' :: rest' <:+ cs := by
        have := List.dropWhile_suffix (l := cs) Numeral.isHexDigit
        rw [List.span_eq_takeWhile_dropWhile] at hspan
        rwa [(Prod.mk.inj hspan).2] at this
      split at h
      · next hcode =>
        cases h
        refine ⟨((List.suffix_cons _ _).trans hsuf).trans (List.suffix_cons _ _), fun tail ht => ?_⟩
        simp only [List.cons_append, span_append_parted _ isHexDigit_paren ht, hspan, hcode]
      · cases h
    · cases h
  · have hne : ∀ x, cs ≠ '{' :: x := fun x hx => hbrace ⟨x, hx⟩
    rw [readCode_digits hne] at h
    split at h
    · next hdigits =>
      have hlen : width ≤ cs.length := by
        have := hdigits.1
        rw [List.length_take] at this
        omega
      split at h
      · next hcode =>
        cases h
        refine ⟨List.drop_suffix _ _, fun tail ht => ?_⟩
        rw [readCode_digits (ht.ne_cons (by decide) hne), List.take_append_of_le_length hlen,
          List.drop_append_of_le_length hlen, if_pos hdigits, hcode]
      · cases h
    · cases h

theorem reads_boundary : Reads readBoundary := by
  intro cs a rest h
  have hname : isBoundaryLetter '(' = false ∧ isBoundaryLetter ')' = false := by decide
  unfold readBoundary at h
  split at h
  · next c cs =>
    split at h
    · next hc =>
      split at h
      · next name rest' hspan =>
        have hsuf : '}' :: rest' <:+ c :: cs := by
          have := List.dropWhile_suffix (l := c :: cs) isBoundaryLetter
          rw [List.span_eq_takeWhile_dropWhile] at hspan
          rwa [(Prod.mk.inj hspan).2] at this
        have hrest : rest = rest' := by split at h <;> cases h <;> rfl
        subst hrest
        refine ⟨((List.suffix_cons _ _).trans hsuf).trans (List.suffix_cons _ _), fun tail ht => ?_⟩
        have happ := span_append_parted (c :: cs) hname ht
        rw [hspan] at happ
        simp only [List.cons_append] at happ
        simp only [List.cons_append, readBoundary, if_pos hc, happ]
        split at h <;> cases h <;> simp_all
      · cases h
    · next hc =>
      cases h
      exact ⟨List.suffix_refl _, fun tail ht => by simp [readBoundary, hc]⟩
  · next hne =>
    cases h
    refine ⟨List.suffix_refl _, fun tail ht => ?_⟩
    unfold readBoundary
    split
    · next c cs' heq =>
      rcases cs with _ | ⟨b, _ | ⟨d, cs⟩⟩
      · obtain ⟨t, rfl | rfl⟩ := ht <;> simp at heq
      · obtain ⟨rfl, rfl⟩ := List.cons.inj heq
        obtain ⟨t, ht | ht⟩ := ht <;> cases ht <;> simp [hname]
      · exact absurd (by simp_all) (hne d cs)
    · rfl

theorem reads_escape : Reads readEscape := by
  intro cs a rest h
  rcases cs with _ | ⟨c, cs⟩
  · cases h
  unfold readEscape at h ⊢
  simp only [List.cons_append] at h ⊢
  split at h
  case h_13 => exact ((reads_code 2).map _).after (List.suffix_cons _ _) h
  case h_14 => exact ((reads_code 4).map _).after (List.suffix_cons _ _) h
  case h_15 => exact ((reads_code 8).map _).after (List.suffix_cons _ _) h
  case h_18 => exact reads_boundary.after (List.suffix_cons _ _) h
  case h_22 =>
    split at h
    · next hesc =>
      cases h
      exact ⟨List.suffix_cons _ _, fun tail ht => by simp [hesc]⟩
    · split at h <;> cases h
  all_goals
    cases h
    exact ⟨List.suffix_cons _ _, fun tail ht => rfl⟩

/-! ## Bracketed classes -/

theorem passCaret_suffix (cs : List Char) : (passCaret cs).2 <:+ cs := by
  unfold passCaret
  split
  · exact List.suffix_cons _ _
  · exact List.suffix_refl _

theorem passCaret_append (h : Parted tail) :
    passCaret (cs ++ tail) = ((passCaret cs).1, (passCaret cs).2 ++ tail) := by
  rcases cs with _ | ⟨c, cs⟩
  · obtain ⟨t, rfl | rfl⟩ := h <;> rfl
  · by_cases hc : c = '^'
    · subst hc
      rfl
    · unfold passCaret
      split <;> simp_all

theorem startItems_suffix (k : OpenClass) (cs : List Char) : (startItems k cs).2 <:+ cs := by
  unfold startItems
  split
  · exact List.suffix_cons _ _
  · exact List.dropWhile_suffix _

theorem startItems_append (k : OpenClass) (h : Parted tail) :
    startItems k (cs ++ tail) = ((startItems k cs).1, (startItems k cs).2 ++ tail) := by
  have hhyphen : ('(' == '-') = false ∧ (')' == '-') = false := by decide
  rcases cs with _ | ⟨c, cs⟩
  · obtain ⟨t, rfl | rfl⟩ := h <;> simp [startItems]
  · by_cases hc : c = ']'
    · subst hc
      rfl
    · have hne : ∀ x, c :: cs ≠ ']' :: x := fun x hx => hc (List.cons.inj hx).1
      have hne' : ∀ x, c :: cs ++ tail ≠ ']' :: x := fun x hx => hc (List.cons.inj hx).1
      rw [startItems.eq_2 _ _ hne, startItems.eq_2 _ _ hne',
        takeWhile_append_parted _ hhyphen h, dropWhile_append_parted _ hhyphen h]

theorem startClass_suffix (cs : List Char) : (startClass cs).2 <:+ cs :=
  (startItems_suffix _ _).trans (passCaret_suffix cs)

theorem startClass_append (h : Parted tail) :
    startClass (cs ++ tail) = ((startClass cs).1, (startClass cs).2 ++ tail) := by
  simp only [startClass, passCaret_append h, startItems_append _ h]

theorem span_append_colon (cs tail : List Char) :
    (cs ++ tail).span (· != ':') =
      if ':' ∈ cs then ((cs.span (· != ':')).1, (cs.span (· != ':')).2 ++ tail)
      else (cs ++ (tail.span (· != ':')).1, (tail.span (· != ':')).2) := by
  simp only [List.span_eq_takeWhile_dropWhile]
  induction cs with
  | nil => simp
  | cons c cs ih =>
    by_cases hc : c = ':'
    · subst hc
      simp
    · by_cases hmem : ':' ∈ cs <;> simp_all [Ne.symm hc]

theorem isAlpha_of_namedSet? {name : String} {s : CharSet} (h : namedSet? name = some s) :
    name.toList.all Char.isAlpha = true := by
  unfold namedSet? at h
  split at h <;> first | rfl | cases h

theorem readNamed?_other (h : ∀ x, cs ≠ ':' :: x) : readNamed? cs = none := by
  unfold readNamed?
  split
  · next x => exact absurd rfl (h x)
  · rfl

theorem readNamed?_append (h : Parted tail) :
    readNamed? (cs ++ tail) = (readNamed? cs).map fun r => (r.1, r.2 ++ tail) := by
  rcases cs with _ | ⟨c, cs⟩
  · obtain ⟨t, rfl | rfl⟩ := h <;> rfl
  by_cases hc : c = ':'
  · subst hc
    simp only [List.cons_append, readNamed?, passCaret_append h, span_append_colon _ tail]
    by_cases hmem : ':' ∈ (passCaret cs).2
    · rw [if_pos hmem]
      rcases (passCaret cs).2.span (· != ':') with ⟨name, _ | ⟨a, _ | ⟨b, rest⟩⟩⟩
      · obtain ⟨t, rfl | rfl⟩ := h <;> simp
      · obtain ⟨t, rfl | rfl⟩ := h <;> simp
      · by_cases ha : a = ':' ∧ b = ']'
        · obtain ⟨rfl, rfl⟩ := ha
          simp only [List.cons_append, Option.map_map]
          rfl
        · simp only [List.cons_append]
          split <;> split <;> simp_all
    -- A name that runs into the parenthesis is the name of no set.
    · have hnone : (passCaret cs).2.span (· != ':') = ((passCaret cs).2, []) := by
        simpa [hmem] using span_append_colon (passCaret cs).2 []
      have hname : namedSet? (String.ofList ((passCaret cs).2 ++ (tail.span (· != ':')).1)) =
          none := by
        rw [Option.eq_none_iff_forall_ne_some]
        intro s hs
        have halpha := isAlpha_of_namedSet? hs
        rw [String.toList_ofList, List.all_append, Bool.and_eq_true] at halpha
        obtain ⟨t, rfl | rfl⟩ := h <;> simp [List.span_eq_takeWhile_dropWhile] at halpha
      rw [if_neg hmem, hnone]
      dsimp only
      split
      · next heq =>
        rw [← (Prod.mk.inj heq).1, hname]
        rfl
      · rfl
  · have hother : ∀ xs, readNamed? (c :: xs) = none := fun xs =>
      readNamed?_other fun x hx => hc (List.cons.inj hx).1
    rw [hother, List.cons_append, hother]
    rfl

theorem reads_classAtom : Reads readClassAtom := by
  intro cs a rest h
  unfold readClassAtom at h
  split at h
  · cases h
  · next cs =>
    obtain ⟨⟨e, rest'⟩, hesc, h⟩ := bind_eq_ok.1 h
    obtain ⟨hsuf, happ⟩ := reads_escape.after (List.suffix_cons '\\' cs) hesc
    have hrest : rest' = rest := by
      split at h <;> cases h <;> simp_all
    subst hrest
    refine ⟨hsuf, fun tail ht => ?_⟩
    simp only [List.cons_append, readClassAtom, happ tail ht, ok_bind]
    split at h <;> cases h <;> simp_all <;> rfl
  · next c cs hne =>
    cases h
    refine ⟨List.suffix_cons _ _, fun tail ht => ?_⟩
    simp only [List.cons_append]
    unfold readClassAtom
    split <;> simp_all

theorem readRange_other {first : Char ⊕ CharSet} (h : ∀ x, cs ≠ '-' :: x) :
    readRange first cs = .ok (atomSet first, cs) := by
  unfold readRange
  split
  · exact absurd rfl (h _)
  · exact absurd rfl (h _)
  · exact absurd rfl (h _)
  · rfl

theorem readRange_hyphen {first : Char ⊕ CharSet} (hc : c ≠ ']') (hc' : c ≠ '-') :
    readRange first ('-' :: c :: cs) = (readClassAtom (c :: cs)).bind fun r =>
      match first, r with
      | .inl a, (.inl b, rest) => if a ≤ b then .ok (.range a b, rest) else .error .badRange
      | _, _ => .error .badRange := by
  unfold readRange
  split <;> simp_all
  rfl

theorem reads_range (first : Char ⊕ CharSet) : Reads (readRange first) := by
  intro cs a rest h
  by_cases hhyphen : ∃ more, cs = '-' :: more
  · obtain ⟨_ | ⟨c, more⟩, rfl⟩ := hhyphen
    · cases h
    by_cases hc : c = ']'
    · subst hc
      cases h
      exact ⟨List.suffix_refl _, fun tail ht => rfl⟩
    by_cases hc' : c = '-'
    · subst hc'
      cases h
      exact ⟨List.suffix_refl _, fun tail ht => rfl⟩
    rw [readRange_hyphen hc hc'] at h
    obtain ⟨⟨second, rest'⟩, hsecond, h⟩ := bind_eq_ok.1 h
    obtain ⟨hsuf, happ⟩ := reads_classAtom.after (List.suffix_cons '-' _) hsecond
    have hrest : rest' = rest := by
      split at h
      · split at h <;> simp_all
      · cases h
    subst hrest
    refine ⟨hsuf, fun tail ht => ?_⟩
    have happ := happ tail ht
    simp only [List.cons_append] at happ ⊢
    rw [readRange_hyphen hc hc', happ]
    simp only [Except.bind]
    split at h
    · split at h <;> simp_all
    · cases h
  · have hne : ∀ x, cs ≠ '-' :: x := fun x hx => hhyphen ⟨x, hx⟩
    rw [readRange_other hne] at h
    cases h
    exact ⟨List.suffix_refl _, fun tail ht => readRange_other (ht.ne_cons (by decide) hne)⟩

theorem reads_classItem : Reads readClassItem := by
  intro cs a rest h
  obtain ⟨⟨first, cs'⟩, hfirst, h⟩ := bind_eq_ok.1 h
  obtain ⟨hsuf, happ⟩ := reads_classAtom hfirst
  obtain ⟨hsuf', happ'⟩ := (reads_range first).after hsuf h
  refine ⟨hsuf', fun tail ht => ?_⟩
  simp only [readClassItem, happ tail ht, ok_bind]
  exact happ' tail ht

theorem skip_append (cs rest tail : List Char) :
    (cs ++ tail).length - (rest ++ tail).length = cs.length - rest.length := by
  simp only [List.length_append]
  omega

theorem readClass_item {outer : List OpenClass} {k : OpenClass} (hopen : c ≠ '[') (hclose : c ≠ ']')
    (hinter : ∀ x, c = '&' → cs ≠ '&' :: x) (hdiff : ∀ x, c = '-' → cs ≠ '-' :: x)
    (hsymm : ∀ x, c = '~' → cs ≠ '~' :: x) :
    readClass outer k 0 (c :: cs) = (readClassItem (c :: cs)).bind fun r =>
      readClass outer (k.add r.1 0) (cs.length - r.2.length) cs := by
  rw [readClass.eq_def]
  split <;> simp_all
  rfl

theorem reads_class (outer : List OpenClass) (k : OpenClass) (n : Nat) :
    Reads (readClass outer k n) := by
  intro cs a rest h
  induction outer, k, n, cs using readClass.induct with
  | case1 outer k n =>
    rw [readClass] at h
    cases h
  | case2 outer k n c cs ih =>
    obtain ⟨hsuf, happ⟩ := ih h
    exact ⟨hsuf.trans (List.suffix_cons _ _), happ⟩
  | case3 outer k cs s named hnamed ih =>
    rw [readClass.eq_3, hnamed] at h
    obtain ⟨hsuf, happ⟩ := ih h
    refine ⟨hsuf.trans (List.suffix_cons _ _), fun tail ht => ?_⟩
    simp only [List.cons_append, readClass.eq_3, readNamed?_append ht, hnamed, Option.map_some,
      skip_append]
    exact happ tail ht
  | case4 outer k cs hnamed inner items hitems ih =>
    rw [readClass.eq_3, hnamed, hitems] at h
    obtain ⟨hsuf, happ⟩ := ih h
    refine ⟨hsuf.trans (List.suffix_cons _ _), fun tail ht => ?_⟩
    simp only [List.cons_append, readClass.eq_3, readNamed?_append ht, hnamed, Option.map_none,
      startClass_append ht, hitems, skip_append]
    exact happ tail ht
  | case5 k cs =>
    cases h
    exact ⟨List.suffix_cons _ _, fun tail ht => rfl⟩
  | case6 k cs o outer ih =>
    obtain ⟨hsuf, happ⟩ := ih h
    exact ⟨hsuf.trans (List.suffix_cons _ _), happ⟩
  | case7 outer k cs _ _ ih =>
    obtain ⟨hsuf, happ⟩ := ih h
    exact ⟨hsuf.trans (List.suffix_cons _ _), happ⟩
  | case8 outer k cs _ _ ih =>
    obtain ⟨hsuf, happ⟩ := ih h
    exact ⟨hsuf.trans (List.suffix_cons _ _), happ⟩
  | case9 outer k cs _ _ ih =>
    obtain ⟨hsuf, happ⟩ := ih h
    exact ⟨hsuf.trans (List.suffix_cons _ _), happ⟩
  | case10 outer k c cs hopen hclose hinter hdiff hsymm ih =>
    rw [readClass_item hopen hclose hinter hdiff hsymm] at h
    obtain ⟨⟨s, item⟩, hitem, h⟩ := bind_eq_ok.1 h
    obtain ⟨hsuf, happ⟩ := ih s item h
    refine ⟨hsuf.trans (List.suffix_cons _ _), fun tail ht => ?_⟩
    have hitem' := (reads_classItem hitem).2 tail ht
    simp only [List.cons_append] at hitem' ⊢
    rw [readClass_item hopen hclose
      (fun x hc => ht.ne_cons (by decide) (fun y => hinter y hc) x)
      (fun x hc => ht.ne_cons (by decide) (fun y => hdiff y hc) x)
      (fun x hc => ht.ne_cons (by decide) (fun y => hsymm y hc) x), hitem']
    simp only [Except.bind, skip_append]
    exact happ tail ht

/-! ## Openings of groups -/

theorem reads_flags (on : Bool) (found : List (Flag × Bool)) : Reads (readFlags on found) := by
  intro cs a rest h
  induction on, found, cs using readFlags.induct with
  | case1 => cases h
  | case2 on found cs =>
    cases h
    exact ⟨List.suffix_cons _ _, fun tail ht => rfl⟩
  | case3 on found cs hfound =>
    rw [readFlags, if_pos hfound] at h
    cases h
  | case4 on found cs hfound =>
    rw [readFlags, if_neg hfound] at h
    cases h
    refine ⟨List.suffix_cons _ _, fun tail ht => ?_⟩
    simp only [List.cons_append, readFlags, if_neg hfound]
  | case5 on found c cs hon ih =>
    rw [readFlags, if_pos hon] at h
    obtain ⟨hsuf, happ⟩ := ih h
    refine ⟨hsuf.trans (List.suffix_cons _ _), fun tail ht => ?_⟩
    simp only [List.cons_append, readFlags.eq_4, if_pos hon]
    exact happ tail ht
  | case6 on found c cs hon =>
    rw [readFlags, if_neg hon] at h
    cases h
  | case7 on found c cs hcolon hclose hhyphen f hletter hfound =>
    rw [readFlags.eq_5 _ _ _ _ hcolon hclose hhyphen, hletter] at h
    simp only [if_pos hfound] at h
    cases h
  | case8 on found c cs hcolon hclose hhyphen f hletter hfound ih =>
    rw [readFlags.eq_5 _ _ _ _ hcolon hclose hhyphen, hletter] at h
    simp only [if_neg hfound] at h
    obtain ⟨hsuf, happ⟩ := ih h
    refine ⟨hsuf.trans (List.suffix_cons _ _), fun tail ht => ?_⟩
    have hc : c ≠ '-' := by
      rintro rfl
      cases hletter
    rw [List.cons_append, readFlags.eq_5 _ _ _ _ hcolon hclose fun _ _ hc' => absurd hc' hc,
      hletter]
    simp only [if_neg hfound]
    exact happ tail ht
  | case9 on found c cs hcolon hclose hhyphen hletter =>
    rw [readFlags.eq_5 _ _ _ _ hcolon hclose hhyphen, hletter] at h
    cases h

theorem reads_name : Reads readName := by
  intro cs a rest h
  unfold readName at h ⊢
  split at h
  · next c name d rest' hspan =>
    split at h
    · next hname =>
      cases h
      have hcut : (c :: name) ++ d :: rest = cs := by
        have := List.takeWhile_append_dropWhile (p := (· != '>')) (l := cs)
        rw [List.span_eq_takeWhile_dropWhile] at hspan
        rwa [(Prod.mk.inj hspan).1, (Prod.mk.inj hspan).2] at this
      refine ⟨⟨c :: name ++ [d], by simpa using hcut⟩, fun tail ht => ?_⟩
      simp only [span_append_of_stopped hspan tail, if_pos hname]
    · cases h
  · cases h

theorem readOpening_other (h : ∀ x, cs ≠ '?' :: x) :
    readOpening cs = .ok (.openCapture none, cs) := by
  apply readOpening.eq_8 <;> exact fun _ hx => h _ hx

theorem reads_opening : Reads readOpening := by
  intro cs a rest h
  unfold readOpening at h
  split at h
  · cases h
  · cases h
  · cases h
  · cases h
  · obtain ⟨hsuf, happ⟩ := reads_name h
    exact ⟨hsuf.trans (List.suffix_append ['?', 'P', '<'] _), happ⟩
  · next cs heq hne =>
    obtain ⟨hsuf, happ⟩ := reads_name h
    refine ⟨hsuf.trans (List.suffix_append ['?', '<'] _), fun tail ht => ?_⟩
    rcases cs with _ | ⟨c, cs⟩
    · cases h
    rw [← happ tail ht]
    exact readOpening.eq_6 _ (by simp_all) (by simp_all)
  · next cs heq hne _ _ hnamed hangle =>
    obtain ⟨hsuf, happ⟩ := reads_flags _ _ h
    refine ⟨hsuf.trans (List.suffix_cons _ _), fun tail ht => ?_⟩
    have hangle' := ht.ne_cons (by decide) hangle
    rw [← happ tail ht]
    refine readOpening.eq_7 _ (ht.ne_cons (by decide) heq) (ht.ne_cons (by decide) hne)
      (fun x => hangle' _) (fun x => hangle' _) ?_ hangle'
    rcases cs with _ | ⟨c, cs⟩
    · cases h
    intro x hx
    obtain ⟨rfl, hx'⟩ : c = 'P' ∧ cs ++ tail = '<' :: x := List.cons.inj hx
    exact ht.ne_cons (by decide) (fun y hy => hnamed y (congrArg _ hy)) x hx'
  · next hne =>
    cases h
    exact ⟨List.suffix_refl _, fun tail ht => readOpening_other (ht.ne_cons (by decide) hne)⟩

/-! ## The whole text -/

/-- The characters that a lexeme of more than themselves can begin with. -/
def isOperator (c : Char) : Bool := "()|[?*+\x7b.^$\\".toList.contains c

theorem readLexeme_plain (h : isOperator c = false) (cs : List Char) :
    readLexeme c cs = .ok (.char (.single c) 0, cs) := by
  unfold readLexeme
  split <;> first | rfl | cases h

theorem reads_lexeme (c : Char) : Reads (readLexeme c) := by
  intro cs a rest h
  by_cases hplain : isOperator c = false
  · rw [readLexeme_plain hplain] at h
    cases h
    exact ⟨List.suffix_refl _, fun tail _ => readLexeme_plain hplain _⟩
  unfold readLexeme at h ⊢
  split at h
  case h_1 => exact reads_opening h
  case h_4 =>
    obtain ⟨hsuf, happ⟩ := ((reads_class [] (startClass cs).1 0).map fun r =>
      Lexeme.char r.set r.depth).after (startClass_suffix cs) h
    refine ⟨hsuf, fun tail ht => ?_⟩
    simp only [startClass_append ht]
    exact happ tail ht
  case h_5 => exact reads_greed _ _ h
  case h_6 => exact reads_greed _ _ h
  case h_7 => exact reads_greed _ _ h
  case h_8 => exact reads_braces h
  case h_12 => exact reads_escape.map Escape.lexeme h
  case h_13 => simp_all [isOperator]
  all_goals
    cases h
    exact ⟨List.suffix_refl _, fun tail ht => rfl⟩

theorem lexemes_drop (n : Nat) (cs : List Char) : lexemes n cs = lexemes 0 (cs.drop n) := by
  induction n generalizing cs with
  | zero => rfl
  | succ n ih =>
    cases cs with
    | nil => rfl
    | cons c cs => exact ih cs

theorem lexemes_cons (c : Char) (cs : List Char) :
    lexemes 0 (c :: cs) =
      readLexeme c cs >>= fun r => (lexemes 0 r.2).map (r.1 :: ·) := by
  rw [lexemes]
  cases hread : readLexeme c cs with
  | error e => rfl
  | ok r =>
    obtain ⟨l, rest⟩ := r
    obtain ⟨front, rfl⟩ := (reads_lexeme c hread).1
    have hrest : (front ++ rest).drop ((front ++ rest).length - rest.length) = rest := by simp
    simp only [ok_bind]
    rw [lexemes_drop, hrest]
    rfl

theorem lexemes_step {l : Lexeme} (h : readLexeme c cs = .ok (l, rest)) :
    lexemes 0 (c :: cs) = (lexemes 0 rest).map (l :: ·) := by
  rw [lexemes_cons, h, ok_bind]

theorem lexemes_append {ls : List Lexeme} (h : lexemes 0 cs = .ok ls) (ht : Parted tail) :
    lexemes 0 (cs ++ tail) = (lexemes 0 tail).map (ls ++ ·) := by
  induction hn : cs.length using Nat.strong_induction_on generalizing cs ls with
  | _ n ih =>
    rcases cs with _ | ⟨c, cs⟩
    · cases h
      rw [List.nil_append]
      cases lexemes 0 tail <;> rfl
    rw [lexemes_cons] at h
    obtain ⟨⟨l, rest⟩, hread, h⟩ := bind_eq_ok.1 h
    obtain ⟨ls, hrest, rfl⟩ := except_map_eq_ok.1 h
    obtain ⟨hsuf, happ⟩ := reads_lexeme c hread
    have hlength : rest.length < n := by
      have := hsuf.length_le
      simp only [List.length_cons] at hn
      omega
    rw [List.cons_append, lexemes_cons, happ tail ht, ok_bind, ih _ hlength hrest rfl]
    cases lexemes 0 tail <;> rfl

/-! ### Letters -/

theorem lexemes_letters {cs : List Char} (h : ∀ c ∈ cs, isOperator c = false) (rest : List Char) :
    lexemes 0 (cs ++ rest) =
      (lexemes 0 rest).map ((cs.map fun c => .char (.single c) 0) ++ ·) := by
  induction cs with
  | nil =>
    rw [List.nil_append]
    cases lexemes 0 rest <;> rfl
  | cons c cs ih =>
    obtain ⟨hc, hcs⟩ := List.forall_mem_cons.1 h
    rw [List.cons_append, lexemes_cons, readLexeme_plain hc, ok_bind, ih hcs]
    cases lexemes 0 rest <;> rfl

theorem foldlM_letters (cs : List Char) (r : Reading) :
    (cs.map fun c => Lexeme.char (.single c) 0).foldlM Reading.step r =
      .ok { r with level := { r.level with
        parts := (cs.map fun c => ⟨some (r.flags.ofSet (.single c)), 0⟩).reverse ++
          r.level.parts } } := by
  induction cs generalizing r with
  | nil => rfl
  | cons c cs ih =>
    have hstep : r.step (.char (.single c) 0) = .ok (r.push (r.flags.ofSet (.single c)) 0) := rfl
    rw [List.map_cons, List.foldlM_cons, hstep, ok_bind, ih]
    simp [Reading.push, Level.push]

end Signpost.Regex
