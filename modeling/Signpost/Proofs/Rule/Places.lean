import Signpost.Proofs.Rule.Counting
import Signpost.Proofs.Rule.Pieces

/-!
# Places

The scanner counts parentheses while it expands a rule. It would count the same in the expansion, so
the pieces of a rule tell where the groups of its expression open.
-/

namespace Signpost

namespace CategorySetting

/-- Whether the word for categories cannot be taken for how a group opens. -/
def isMild (setting : CategorySetting) : Bool :=
  setting.word.toList.all fun c => !"<=!".toList.contains c

theorem notMem_of_isMild {setting : CategorySetting} (h : setting.isMild = true) :
    ∀ c ∈ setting.word.toList, c ∉ "<=!".toList := by
  simpa only [isMild, List.all_eq_true, Bool.not_eq_true', List.contains_eq_mem,
    decide_eq_false_iff_not] using h

end CategorySetting

namespace Piece

open Regex

def lead (setting : CategorySetting) : Kind → List Char
  | .category => Regex.escape setting.word.toList ++ ['/']
  | _ => []

/-- The places of the parentheses that are counted in the expansions of some pieces. -/
def places (setting : CategorySetting) : (place : Nat) → List Piece → List Nat
  | _, [] => []
  | place, p :: ps =>
    let later := places setting (place + (p.expansion setting).length) ps
    match p with
    | wildcard _ kind => (place + (lead setting kind).length) :: later
    | paren true => place :: later
    | _ => later

/-- Whether a piece is no class with a bracket inside it. -/
def isFlat : Piece → Bool
  | bracket text => !text.tail.contains '['
  | _ => true

variable {setting : CategorySetting} {c d : Char} {a b cs rest t w : List Char} {n place : Nat}

theorem capture_eq_lead (setting : CategorySetting) (kind : Kind) :
    ∃ inside, capture setting kind = lead setting kind ++ '(' :: inside := by
  cases kind with
  | category =>
    obtain ⟨inside, hvalue⟩ : ∃ inside, (if setting.byName then "([^/]+)".toList
        else "([0-9]+)".toList) = '(' :: inside := by
      cases setting.byName <;> exact ⟨_, rfl⟩
    refine ⟨inside, ?_⟩
    unfold capture lead
    simp only [hvalue, List.append_assoc, List.singleton_append]
  | _ => exact ⟨_, rfl⟩

/-! ## What the scanner passes over -/

theorem counted?_beyond (h : cs.length ≤ n) (place : Nat) : counted? n place cs = some [] := by
  induction cs generalizing n place with
  | nil => cases n <;> rfl
  | cons c cs ih =>
    cases n with
    | zero => cases h
    | succ n => exact ih (Nat.le_of_succ_le_succ h) _

theorem counted?_paren (cs : List Char) (place : Nat) :
    counted? 0 place ('(' :: cs) = (counted? 0 (place + 1) cs).map fun later =>
      if opensCapture cs then place :: later else later := by
  simp [counted?, passedOver]

theorem counted?_escaped (d : Char) (cs : List Char) (place : Nat) :
    counted? 0 place ('\\' :: d :: cs) = counted? 0 (place + 2) cs := by
  simp [counted?, passedOver]

theorem counted?_lone (place : Nat) : counted? 0 place ['\\'] = some [] := by
  simp [counted?]

theorem counted?_bracket (hclosed : inBrackets (w ++ t) = w) (hflat : '[' ∉ w) (place : Nat) :
    counted? 0 place ('[' :: (w ++ t)) = counted? 0 (place + (w.length + 1)) t := by
  have hpassed : passedOver '[' (w ++ t) = w.length := congrArg List.length hclosed
  rw [counted?, hclosed, if_neg fun h => hflat h.2, hpassed, counted?_skip, Nat.add_assoc,
    Nat.add_comm 1]
  simp

theorem counted?_char (h : c ≠ '\\' ∧ c ≠ '[' ∧ c ≠ '(') (cs : List Char) (place : Nat) :
    counted? 0 place (c :: cs) = counted? 0 (place + 1) cs := by
  obtain ⟨hbackslash, hbracket, hparen⟩ := h
  exact counted?_passive (t := [c]) (by simp [isPassive, hbackslash, hbracket, hparen]) cs place

theorem escape_cons (c : Char) (w : List Char) :
    Regex.escape (c :: w) = (if isMeta c then ['\\', c] else [c]) ++ Regex.escape w :=
  List.flatMap_cons

theorem counted?_escape (w rest : List Char) (place : Nat) :
    counted? 0 place (Regex.escape w ++ rest) =
      counted? 0 (place + (Regex.escape w).length) rest := by
  induction w generalizing place with
  | nil => rfl
  | cons c w ih =>
    rw [escape_cons]
    split
    · rw [List.append_assoc, List.length_append, ← Nat.add_assoc, ← ih]
      exact counted?_escaped c _ place
    · next hmeta =>
      have hpassive : c ≠ '\\' ∧ c ≠ '[' ∧ c ≠ '(' := by
        refine ⟨?_, ?_, ?_⟩ <;> rintro rfl <;> exact hmeta rfl
      rw [List.append_assoc, List.length_append, ← Nat.add_assoc, ← ih]
      exact counted?_char hpassive _ place

theorem counted?_value (hclosed : ∀ x, inBrackets (w ++ x) = w) (hflat : '[' ∉ w)
    (ht : t.all isPassive = true) (rest : List Char) (place : Nat) :
    counted? 0 place ('(' :: '[' :: (w ++ (t ++ rest))) =
      (counted? 0 (place + 1 + (w.length + 1) + t.length) rest).map (place :: ·) := by
  rw [counted?_paren, counted?_bracket (hclosed _) hflat, counted?_passive ht]
  rfl

theorem counted?_inner (ht : t.all isPassive = true) (rest : List Char) (place : Nat) :
    counted? 0 place ('(' :: '(' :: '?' :: ':' :: (t ++ rest)) =
      (counted? 0 (place + 4 + t.length) rest).map (place :: ·) := by
  -- The group begins as one that does not capture.
  have hstart : ['?', ':'].all isPassive = true := by decide
  refine (counted?_paren _ _).trans (congrArg _ ?_)
  refine (counted?_paren _ _).trans (Eq.trans Option.map_id' ?_)
  exact (counted?_passive hstart _ _).trans (counted?_passive ht _ _)

theorem counted?_capture (setting : CategorySetting) (kind : Kind) (rest : List Char)
    (place : Nat) :
    counted? 0 place (capture setting kind ++ rest) =
      (counted? 0 (place + (capture setting kind).length) rest).map
        ((place + (lead setting kind).length) :: ·) := by
  have hname : ∀ rest place, counted? 0 place ("([^/]+)".toList ++ rest) =
      (counted? 0 (place + 7) rest).map (place :: ·) :=
    counted?_value (w := "^/]".toList) (t := "+)".toList) (fun x => rfl) (by decide) (by decide)
  have hnumber : ∀ rest place, counted? 0 place ("([0-9]+)".toList ++ rest) =
      (counted? 0 (place + 8) rest).map (place :: ·) :=
    counted?_value (w := "0-9]".toList) (t := "+)".toList) (fun x => rfl) (by decide) (by decide)
  have hday : ∀ rest place, counted? 0 place ("([0-9]\x7b2\x7d)".toList ++ rest) =
      (counted? 0 (place + 10) rest).map (place :: ·) :=
    counted?_value (w := "0-9]".toList) (t := "\x7b2\x7d)".toList) (fun x => rfl) (by decide)
      (by decide)
  cases kind with
  | any => exact hname rest place
  | urlTitle => exact hname rest place
  | categoryUrlTitle => exact hname rest place
  | username => exact hname rest place
  | num => exact hnumber rest place
  | entryId => exact hnumber rest place
  | categoryId => exact hnumber rest place
  | memberId => exact hnumber rest place
  | year =>
    exact counted?_value (w := "0-9]".toList) (t := "\x7b4\x7d)".toList) (fun x => rfl)
      (by decide) (by decide) rest place
  | month => exact hday rest place
  | day => exact hday rest place
  | pagination =>
    refine (counted?_inner (t := "/P".toList) (by decide) _ place).trans (congrArg _ ?_)
    refine (counted?_bracket (w := "0-9]".toList) rfl (by decide) _).trans ?_
    exact counted?_passive (t := "+)?)".toList) (by decide) rest _
  | all => exact counted?_inner (t := "/.*)?)".toList) (by decide) rest place
  | category =>
    have hvalue : ∀ place, counted? 0 place
        ((if setting.byName then "([^/]+)".toList else "([0-9]+)".toList) ++ rest) =
          (counted? 0 (place +
            (if setting.byName then "([^/]+)".toList else "([0-9]+)".toList).length) rest).map
              (place :: ·) := by
      cases setting.byName
      · exact hnumber rest
      · exact hname rest
    unfold capture lead
    rw [List.append_assoc, List.cons_append, counted?_escape, counted?_char (by decide), hvalue]
    simp only [List.length_append, List.length_cons, List.length_nil, Nat.add_assoc,
      Nat.add_comm 1]

/-! ## How a group opens -/

theorem opensCapture_other (h : cs.head? ≠ some '?') : opensCapture cs = true := by
  unfold opensCapture
  split <;> first | rfl | exact absurd rfl h

theorem opensCapture_named (cs : List Char) :
    opensCapture ('?' :: 'P' :: cs) = (cs.head? == some '<') := by
  cases cs with
  | nil => rfl
  | cons d cs =>
    by_cases hd : d = '<'
    · subst hd
      rfl
    · simp [opensCapture, hd]

theorem opensCapture_angle (cs : List Char) :
    opensCapture ('?' :: '<' :: cs) = !(cs.head? == some '=' || cs.head? == some '!') := by
  cases cs with
  | nil => rfl
  | cons d cs =>
    by_cases hequal : d = '='
    · subst hequal
      rfl
    by_cases hbang : d = '!'
    · subst hbang
      rfl
    · simp [opensCapture, hequal, hbang]

theorem opensCapture_question (h : cs.head? ≠ some 'P') (h' : cs.head? ≠ some '<') :
    opensCapture ('?' :: cs) = false := by
  unfold opensCapture
  split <;> simp_all

theorem head?_escape (hw : ∀ c ∈ w, c ∉ "<=!".toList) (hd : d ∈ "?<=!".toList) :
    (Regex.escape w ++ '/' :: rest).head? ≠ some d := by
  cases w with
  | nil =>
    intro h
    obtain rfl := Option.some.inj h
    revert hd
    decide
  | cons c w =>
    rw [escape_cons]
    split
    · intro h
      obtain rfl := Option.some.inj h
      revert hd
      decide
    · next hmeta =>
      intro h
      obtain rfl := Option.some.inj h
      rcases List.mem_cons.1 hd with rfl | hd
      · exact hmeta rfl
      · exact hw _ List.mem_cons_self hd

theorem head?_capture (hword : setting.isMild = true) (hd : d ∈ "?<=!".toList) (kind : Kind) :
    (capture setting kind ++ rest).head? ≠ some d := by
  have hparen : ∀ cs, ('(' :: cs).head? ≠ some d := by
    intro cs h
    obtain rfl := Option.some.inj h
    revert hd
    decide
  cases kind with
  | category =>
    unfold capture
    rw [List.append_assoc]
    exact head?_escape (CategorySetting.notMem_of_isMild hword) hd
  | _ => exact hparen _

theorem opensCapture_question_cons (hp : c ≠ 'P') (hangle : c ≠ '<') (cs : List Char) :
    opensCapture ('?' :: c :: cs) = false :=
  opensCapture_question (by simpa using hp) (by simpa using hangle)

theorem opensCapture_question_capture (hword : setting.isMild = true) (kind : Kind)
    (rest : List Char) :
    opensCapture ('?' :: (capture setting kind ++ rest)) = false := by
  obtain ⟨inside, hinside⟩ := capture_eq_lead setting kind
  rw [hinside]
  cases kind with
  | category =>
    rw [lead, List.append_assoc, List.append_assoc]
    cases hw : setting.word.toList with
    | nil => exact opensCapture_question_cons (c := '/') (by decide) (by decide) _
    | cons c w =>
      have hmild := CategorySetting.notMem_of_isMild hword
      rw [hw] at hmild
      obtain ⟨hc, hrest⟩ := List.forall_mem_cons.1 hmild
      rw [escape_cons]
      split
      · exact opensCapture_question_cons (c := '\\') (by decide) (by decide) _
      · by_cases hp : c = 'P'
        · subst hp
          refine (opensCapture_named _).trans (beq_eq_false_iff_ne.2 ?_)
          exact head?_escape hrest (by decide)
        · refine opensCapture_question_cons hp ?_ _
          rintro rfl
          exact hc (by decide)
  | _ => exact opensCapture_question_cons (c := '(') (by decide) (by decide) _

theorem expandRule_cons (h : cut (c :: cs) = first c cs :: cut rest) :
    (expandRule setting (c :: cs)).1 =
      (first c cs).expansion setting ++ (expandRule setting rest).1 := by
  unfold expandRule
  rw [h]
  rfl

theorem head?_expandRule (hword : setting.isMild = true) (hd : d ∈ "?<=!".toList) (cs : List Char) :
    (expandRule setting cs).1.head? = some d ↔ cs.head? = some d := by
  cases cs with
  | nil => rfl
  | cons c cs =>
    obtain ⟨w, rest, rfl, hsource, hcut⟩ := cut_cons c cs
    rw [expandRule_cons hcut]
    rcases first_cases c (w ++ rest) with ⟨slash, kind, h, hc⟩ | ⟨-, h⟩ | ⟨-, h⟩ | ⟨-, h⟩ | ⟨-, h⟩
    · rw [h]
      refine iff_of_false (head?_capture hword hd kind) fun h => ?_
      obtain rfl := Option.some.inj h
      revert hd
      rcases hc with rfl | rfl <;> decide
    all_goals
      have hsame : (first c (w ++ rest)).expansion setting = (first c (w ++ rest)).source := by
        rw [h]
        rfl
      rw [hsame, hsource]
      rfl

theorem expandRule_char (h : first c cs = char c) :
    (expandRule setting (c :: cs)).1 = c :: (expandRule setting cs).1 := by
  have hcut : cut (c :: cs) = first c cs :: cut cs :=
    cutFrom_source (w := []) (congrArg source h) rfl
  rw [expandRule_cons hcut, h]
  rfl

theorem opensCapture_expandRule (hword : setting.isMild = true) (cs : List Char) :
    opensCapture (expandRule setting cs).1 = opensCapture cs := by
  by_cases hquestion : cs.head? = some '?'
  · obtain ⟨cs, rfl⟩ := List.head?_eq_some_iff.1 hquestion
    rw [expandRule_char rfl]
    cases cs with
    | nil => rfl
    | cons c cs =>
      have hbehind : ∀ d ∈ "?<=!".toList,
          ((expandRule setting cs).1.head? == some d) = (cs.head? == some d) := fun d hd => by
        rw [Bool.eq_iff_iff, beq_iff_eq, beq_iff_eq, head?_expandRule hword hd]
      have hsame : ∀ {c : Char} {cs : List Char}, c ≠ 'P' → c ≠ '<' →
          (first c cs).expansion setting = (first c cs).source →
            opensCapture ('?' :: (expandRule setting (c :: cs)).1) =
              opensCapture ('?' :: c :: cs) := by
        intro c cs hp hangle h
        obtain ⟨w, rest, rfl, hsource, hcut⟩ := cut_cons c cs
        rw [expandRule_cons hcut, h, hsource, List.cons_append,
          opensCapture_question_cons hp hangle, opensCapture_question_cons hp hangle]
      rcases first_cases c cs with ⟨slash, kind, h, hc⟩ | ⟨rfl, h⟩ | ⟨rfl, h⟩ | ⟨rfl, h⟩ | ⟨-, h⟩
      -- The word for categories may begin with a `P`, but no `<` is behind it.
      · obtain ⟨w, rest, rfl, -, hcut⟩ := cut_cons c cs
        rw [expandRule_cons hcut, h, opensCapture_question_cons (by rintro rfl; simp at hc)
          (by rintro rfl; simp at hc)]
        exact opensCapture_question_capture hword kind _
      · exact hsame (by decide) (by decide) (by rw [h]; rfl)
      · exact hsame (by decide) (by decide) (by rw [h]; rfl)
      · exact hsame (by decide) (by decide) (by rw [h]; rfl)
      · rw [expandRule_char h]
        by_cases hp : c = 'P'
        · subst hp
          rw [opensCapture_named, opensCapture_named, hbehind _ (by decide)]
        by_cases hangle : c = '<'
        · subst hangle
          rw [opensCapture_angle, opensCapture_angle, hbehind _ (by decide), hbehind _ (by decide)]
        · rw [opensCapture_question_cons hp hangle, opensCapture_question_cons hp hangle]
  · rw [opensCapture_other hquestion, opensCapture_other]
    exact fun h => hquestion ((head?_expandRule hword (by decide) cs).1 h)

/-! ## What is counted in an expansion -/

theorem counted?_expandRule (hword : setting.isMild = true)
    (hflat : ∀ p ∈ cut cs, p.isFlat = true) (place : Nat) :
    counted? 0 place (expandRule setting cs).1 = some (places setting place (cut cs)) := by
  induction hn : cs.length using Nat.strong_induction_on generalizing cs place with
  | _ n ih =>
    cases cs with
    | nil => rfl
    | cons c cs =>
      obtain ⟨w, rest, rfl, hsource, hcut⟩ := cut_cons c cs
      have hrest : ∀ place, counted? 0 place (expandRule setting rest).1 =
          some (places setting place (cut rest)) := by
        intro place
        refine ih rest.length ?_ (fun p hp => hflat p (hcut ▸ List.mem_cons_of_mem _ hp)) place rfl
        simp only [List.length_cons, List.length_append] at hn
        omega
      rw [expandRule_cons hcut, hcut]
      rcases first_cases c (w ++ rest) with ⟨slash, kind, h, -⟩ | ⟨rfl, h⟩ | ⟨rfl, h⟩ | ⟨rfl, h⟩ |
        ⟨hc, h⟩
      · rw [h]
        refine (counted?_capture setting kind _ place).trans ?_
        rw [hrest]
        rfl
      · rw [h] at hsource ⊢
        obtain hw : (w ++ rest).head?.toList = w := (List.cons.inj hsource).2
        cases hcs : w ++ rest with
        | nil =>
          obtain ⟨rfl, rfl⟩ := List.append_eq_nil_iff.1 hcs
          exact counted?_lone place
        | cons d cs => exact (counted?_escaped d _ place).trans (hrest _)
      · have hmem := hflat _ (hcut ▸ List.mem_cons_self)
        rw [h, isFlat, List.tail_cons, Bool.not_eq_true', List.contains_eq_mem,
          decide_eq_false_iff_not] at hmem
        rw [h] at hsource ⊢
        have hw : inBrackets (w ++ rest) = w := (List.cons.inj hsource).2
        rw [hw] at hmem ⊢
        -- A class that is not closed is the last piece, with nothing behind it.
        have hclosed : inBrackets (w ++ (expandRule setting rest).1) = w := by
          rcases closesOrTakesAll (w ++ rest) with hclosed | ⟨hall, -⟩
          · rw [hw] at hclosed
            exact hclosed _
          · obtain rfl : rest = [] := List.self_eq_append_right.1 (hw.symm.trans hall)
            exact hw
        exact (counted?_bracket hclosed hmem place).trans (hrest _)
      · rw [h] at hsource ⊢
        obtain rfl : w = [] := (List.cons.inj hsource).2.symm
        refine (counted?_paren (expandRule setting rest).1 place).trans ?_
        rw [hrest, List.nil_append, opensCapture_expandRule hword]
        cases opensCapture rest <;> rfl
      · rw [h]
        exact (counted?_char hc _ place).trans (hrest _)

theorem places_cons (setting : CategorySetting) (place : Nat) (p : Piece) (ps : List Piece) :
    ∃ own, own.length = p.kinds.length ∧ places setting place (p :: ps) =
      own ++ places setting (place + (p.expansion setting).length) ps := by
  cases p with
  | wildcard slash kind => exact ⟨[_], rfl, rfl⟩
  | paren captures =>
    cases captures with
    | true => exact ⟨[_], rfl, rfl⟩
    | false => exact ⟨[], rfl, rfl⟩
  | _ => exact ⟨[], rfl, rfl⟩

theorem length_places (setting : CategorySetting) (place : Nat) (ps : List Piece) :
    (places setting place ps).length = (ps.flatMap kinds).length := by
  induction ps generalizing place with
  | nil => rfl
  | cons p ps ih =>
    obtain ⟨own, hown, hplaces⟩ := places_cons setting place p ps
    rw [hplaces, List.flatMap_cons, List.length_append, List.length_append, hown, ih]

/-! ## Between the anchors -/

theorem inBrackets_append (a b : List Char) :
    inBrackets (a ++ b) = inBrackets a ∨
      inBrackets a = a ∧ ∃ t, inBrackets (a ++ b) = a ++ t ∧ t <+: b := by
  rcases closesOrTakesAll a with hclosed | ⟨hall, hmore⟩
  · obtain ⟨rest, hrest⟩ := prefix_inBrackets a
    refine .inl ?_
    conv_lhs => rw [← hrest, List.append_assoc]
    exact hclosed _
  · obtain ⟨t, ht⟩ := hmore b
    refine .inr ⟨hall, t, ht.symm, ?_⟩
    have hprefix := prefix_inBrackets (a ++ b)
    rwa [← ht, List.prefix_append_right_inj] at hprefix

theorem opensCapture_append (hb : ∀ c ∈ b, c ∈ ")$/".toList) (a : List Char) :
    opensCapture (a ++ b) = opensCapture a := by
  have hhead : ∀ d, d ∉ ")$/".toList → ∀ a, (a ++ b).head? = some d ↔ a.head? = some d := by
    intro d hd a
    cases a with
    | nil => exact iff_of_false (fun h => hd (hb d (List.mem_of_head? h))) (by simp)
    | cons c a => rfl
  have hbehind : ∀ d, d ∉ ")$/".toList → ∀ a,
      ((a ++ b).head? == some d) = (a.head? == some d) := by
    intro d hd a
    rw [Bool.eq_iff_iff, beq_iff_eq, beq_iff_eq, hhead d hd]
  by_cases hquestion : a.head? = some '?'
  · obtain ⟨a, rfl⟩ := List.head?_eq_some_iff.1 hquestion
    by_cases hp : a.head? = some 'P'
    · obtain ⟨a, rfl⟩ := List.head?_eq_some_iff.1 hp
      refine (opensCapture_named (a ++ b)).trans (.trans ?_ (opensCapture_named a).symm)
      rw [hbehind _ (by decide)]
    by_cases hangle : a.head? = some '<'
    · obtain ⟨a, rfl⟩ := List.head?_eq_some_iff.1 hangle
      refine (opensCapture_angle (a ++ b)).trans (.trans ?_ (opensCapture_angle a).symm)
      rw [hbehind _ (by decide), hbehind _ (by decide)]
    · rw [opensCapture_question hp hangle]
      exact opensCapture_question (fun h => hp ((hhead _ (by decide) a).1 h))
        fun h => hangle ((hhead _ (by decide) a).1 h)
  · rw [opensCapture_other hquestion]
    exact opensCapture_other fun h => hquestion ((hhead _ (by decide) a).1 h)

theorem counted?_trailing (hb : ∀ c ∈ b, c ∈ ")$/".toList) (n place : Nat) :
    counted? n place b = some [] := by
  induction b generalizing n place with
  | nil => cases n <;> rfl
  | cons c b ih =>
    obtain ⟨hc, hb⟩ := List.forall_mem_cons.1 hb
    cases n with
    | succ n => exact ih hb n _
    | zero =>
      refine (counted?_char ?_ b place).trans (ih hb 0 _)
      refine ⟨?_, ?_, ?_⟩ <;> rintro rfl <;> revert hc <;> decide

theorem counted?_inBrackets_append (hb : ∀ c ∈ b, c ∈ ")$/".toList) (a : List Char) :
    ('[' ∈ inBrackets (a ++ b) ↔ '[' ∈ inBrackets a) ∧ ∀ place,
      counted? (inBrackets (a ++ b)).length place a = counted? (inBrackets a).length place a := by
  rcases inBrackets_append a b with h | ⟨hall, t, ht, hprefix⟩
  · rw [h]
    exact ⟨.rfl, fun _ => rfl⟩
  · have hnot : '[' ∉ t := fun hmem => absurd (hb _ (List.IsPrefix.subset hprefix hmem)) (by decide)
    rw [ht, hall]
    refine ⟨by simp [hnot], fun place => ?_⟩
    rw [counted?_beyond (by simp), counted?_beyond (Nat.le_refl _)]

theorem counted?_append (hb : ∀ c ∈ b, c ∈ ")$/".toList) (a : List Char) (n place : Nat) :
    counted? n place (a ++ b) = counted? n place a := by
  induction a generalizing n place with
  | nil => exact (counted?_trailing hb n place).trans (by cases n <;> rfl)
  | cons c a ih =>
    cases n with
    | succ n => exact ih n _
    | zero =>
      obtain ⟨hmem, hlength⟩ := counted?_inBrackets_append hb a
      have hlater : counted? (passedOver c (a ++ b)) (place + 1) a =
          counted? (passedOver c a) (place + 1) a := by
        unfold passedOver
        split
        · rfl
        · exact hlength _
        · rfl
      rw [List.cons_append, counted?, counted?, ih, opensCapture_append hb, hlater]
      simp only [hmem]

theorem counted?_shift (k n place : Nat) (cs : List Char) :
    counted? n (place + k) cs = (counted? n place cs).map (List.map (· + k)) := by
  induction cs generalizing n place with
  | nil => cases n <;> rfl
  | cons c cs ih =>
    cases n with
    | succ n =>
      rw [counted?, counted?, Nat.add_right_comm, ih]
    | zero =>
      rw [counted?, counted?, Nat.add_right_comm, ih]
      split
      · rfl
      · rw [Option.map_map, Option.map_map]
        congr 1
        funext later
        simp only [Function.comp]
        split <;> rfl

theorem counted?_trimEnd (cs : List Char) (place : Nat) :
    counted? 0 place (Text.trimEnd Text.isSlash cs) = counted? 0 place cs := by
  have hcs : Text.trimEnd Text.isSlash cs ++ (cs.reverse.takeWhile Text.isSlash).reverse = cs := by
    rw [Text.trimEnd, ← List.reverse_append, List.takeWhile_append_dropWhile, List.reverse_reverse]
  have hslashes : ∀ c ∈ (cs.reverse.takeWhile Text.isSlash).reverse, c ∈ ")$/".toList := by
    intro c hc
    have hslash := List.mem_takeWhile_imp (List.mem_reverse.1 hc)
    obtain rfl : c = '/' := eq_of_beq hslash
    decide
  conv_rhs => rw [← hcs]
  exact (counted?_append hslashes _ _ _).symm

theorem counted?_trimStart (cs : List Char) :
    counted? 0 0 cs = (counted? 0 0 (Text.trimStart Text.isSlash cs)).map
      (List.map (· + (cs.takeWhile Text.isSlash).length)) := by
  have hslashes : (cs.takeWhile Text.isSlash).all isPassive = true := by
    refine List.all_eq_true.2 fun c hc => ?_
    have hslash := List.mem_takeWhile_imp hc
    obtain rfl : c = '/' := eq_of_beq hslash
    decide
  have hpassive := counted?_passive hslashes (cs.dropWhile Text.isSlash) 0
  rw [List.takeWhile_append_dropWhile, counted?_shift] at hpassive
  exact hpassive

theorem counted?_anchor (body : List Char) :
    counted? 0 0 ("^(?:".toList ++ body ++ ")$".toList) =
      (counted? 0 0 body).map (List.map (· + "^(?:".toList.length)) := by
  have hanchor : counted? 0 0 ("^(?:".toList ++ (body ++ ")$".toList)) =
      counted? 0 (0 + 4) (body ++ ")$".toList) := by
    refine (counted?_char (by decide) _ _).trans ((counted?_paren _ _).trans ?_)
    exact Option.map_id'.trans (counted?_passive (t := "?:".toList) (by decide) _ _)
  rw [List.append_assoc, hanchor, counted?_append (fun c hc => ?_), counted?_shift]
  · rfl
  · simp only [String.reduceToList, List.mem_cons, List.not_mem_nil, or_false] at hc
    rcases hc with rfl | rfl <;> decide

end Piece

end Signpost
