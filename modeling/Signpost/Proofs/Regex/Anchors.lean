import Signpost.Proofs.Regex.Groups
import Signpost.Proofs.Regex.Lexing
import Signpost.Proofs.Regex.Search

/-!
# Anchored expressions

A text that can be read by itself can be read with anchors and a plain group around it, and is read
into the same tree there. What such an expression matches is always the whole of the text that is
searched.
-/

namespace Signpost.Regex

variable {text : List Char} {i j n : Nat} {m : List Mark} {e : Expr} {es fs : List Expr}

/-! ## One after the other -/

/-- Expressions take what lies between two places, one after the other. -/
def TakesAll (text : List Char) : List Expr → (i j : Nat) → List Mark → Prop
  | [], i, j, m => j = i ∧ m = []
  | e :: es, i, j, m => ∃ k ma mb, Takes text e i k ma ∧ TakesAll text es k j mb ∧ m = mb ++ ma

theorem takesAll_append :
    TakesAll text (es ++ fs) i j m ↔
      ∃ k ma mb, TakesAll text es i k ma ∧ TakesAll text fs k j mb ∧ m = mb ++ ma := by
  induction es generalizing i m with
  | nil =>
    constructor
    · intro h
      exact ⟨i, [], m, ⟨rfl, rfl⟩, h, by simp⟩
    · rintro ⟨k, ma, mb, ⟨rfl, rfl⟩, h, rfl⟩
      simpa using h
  | cons e es ih =>
    constructor
    · rintro ⟨k, ma, m', h, h', rfl⟩
      obtain ⟨l, mb, mc, h1, h2, rfl⟩ := ih.1 h'
      exact ⟨l, mb ++ ma, mc, ⟨k, ma, mb, h, h1, rfl⟩, h2, by simp⟩
    · rintro ⟨l, _, mc, ⟨k, ma, mb, h, h1, rfl⟩, h2, rfl⟩
      exact ⟨k, ma, mc ++ mb, h, ih.2 ⟨l, mb, mc, h1, h2, rfl⟩, by simp⟩

theorem takesAll_singleton : TakesAll text [e] i j m ↔ Takes text e i j m := by
  constructor
  · rintro ⟨k, ma, mb, h, ⟨rfl, rfl⟩, rfl⟩
    simpa using h
  · intro h
    exact ⟨j, m, [], h, ⟨rfl, rfl⟩, by simp⟩

theorem takes_ofItems : Takes text (Expr.ofItems es) i j m ↔ TakesAll text es i j m := by
  induction es generalizing i m with
  | nil => exact takes_empty
  | cons e es ih =>
    cases es with
    | nil => exact takesAll_singleton.symm
    | cons f fs => simp only [Expr.ofItems, takes_cat, ih, TakesAll]

theorem takesAll_items : TakesAll text e.items i j m ↔ Takes text e i j m := by
  induction e generalizing i j m with
  | empty => exact takes_empty.symm
  | cat a b iha ihb => simp only [Expr.items, takesAll_append, iha, ihb, takes_cat]
  | _ => exact takesAll_singleton

theorem takesAll_flatMap_items :
    TakesAll text (es.flatMap Expr.items) i j m ↔ TakesAll text es i j m := by
  induction es generalizing i m with
  | nil => rfl
  | cons e es ih => simp only [List.flatMap_cons, takesAll_append, takesAll_items, ih, TakesAll]

theorem takes_seq : Takes text (Expr.seq es) i j m ↔ TakesAll text es i j m := by
  rw [Expr.seq, takes_ofItems, takesAll_flatMap_items]

/-! ### Parts that stay apart -/

namespace Expr

/-- Neither a sequence nor a choice. -/
structure IsPart (e : Expr) : Prop where
  items : e.items = [e]
  branches : e.branches = [e]

theorem isPart_char (s : CharSet) : (char s).IsPart := ⟨rfl, rfl⟩

theorem isPart_group (n : Nat) (e : Expr) : (group n e).IsPart := ⟨rfl, rfl⟩

theorem seq_of_isPart (h : ∀ e ∈ es, e.IsPart) : seq es = ofItems es := by
  have hitems : es.flatMap items = es := by
    induction es with
    | nil => rfl
    | cons e es ih =>
      obtain ⟨he, hes⟩ := List.forall_mem_cons.1 h
      rw [List.flatMap_cons, he.items, ih hes]
      rfl
  rw [seq, hitems]

theorem branches_ofItems (h : ∀ e ∈ es, e.IsPart) : (ofItems es).branches = [ofItems es] := by
  rcases es with _ | ⟨e, _ | ⟨f, es⟩⟩
  · rfl
  · exact (h e List.mem_cons_self).branches
  · rfl

theorem oneOf_singleton (h : e.branches = [e]) : oneOf [e] = e := by
  simp [oneOf, h]

end Expr

/-! ## Anchors -/

/-- The tree of an expression between anchors. -/
def Expr.anchored (e : Expr) : Expr := seq [look .textStart, e, look .textEnd]

theorem holds_textStart (hi : i ≤ text.length) :
    Look.textStart.holds (placeAt text i).before (placeAt text i).after = true ↔ i = 0 := by
  simp only [Look.holds, placeAt, Option.isNone_iff_eq_none, List.getLast?_eq_none_iff,
    List.take_eq_nil_iff]
  constructor
  · rintro (h | rfl)
    · exact h
    · simpa using hi
  · exact .inl

theorem holds_textEnd (hi : i ≤ text.length) :
    Look.textEnd.holds (placeAt text i).before (placeAt text i).after = true ↔
      i = text.length := by
  simp only [Look.holds, placeAt, Option.isNone_iff_eq_none, List.getElem?_eq_none_iff]
  omega

theorem takes_anchored (hi : i ≤ text.length) :
    Takes text e.anchored i j m ↔ i = 0 ∧ j = text.length ∧ Takes text e 0 text.length m := by
  rw [Expr.anchored, takes_seq]
  constructor
  · rintro ⟨k, _, _, hstart, ⟨l, ma, _, he, hend, rfl⟩, rfl⟩
    obtain ⟨hi0, rfl, rfl⟩ := takes_look.1 hstart
    obtain ⟨hj, rfl, rfl⟩ := takes_look.1 (takesAll_singleton.1 hend)
    obtain rfl := (holds_textStart hi).1 hi0
    obtain rfl := (holds_textEnd (he.le_length hi)).1 hj
    exact ⟨rfl, rfl, by simpa using he⟩
  · rintro ⟨rfl, rfl, he⟩
    refine ⟨0, [], m, takes_look.2 ⟨(holds_textStart hi).2 rfl, rfl, rfl⟩, ?_, by simp⟩
    refine ⟨text.length, m, [], he, takesAll_singleton.2 (takes_look.2 ⟨?_, rfl, rfl⟩), by simp⟩
    exact (holds_textEnd (Nat.le_refl _)).2 rfl

theorem oneOf_anchored (e : Expr) : Expr.oneOf [e.anchored] = e.anchored := by
  have hcat : ∃ f, e.anchored = .cat (.look .textStart) f := by
    rw [Expr.anchored, Expr.seq]
    simp only [List.flatMap_cons, List.flatMap_nil, Expr.items, List.append_nil, List.nil_append,
      List.cons_append]
    cases h : e.items ++ [.look .textEnd] with
    | nil => simp at h
    | cons f fs => exact ⟨_, rfl⟩
  obtain ⟨f, hf⟩ := hcat
  exact Expr.oneOf_singleton (by simp [hf, Expr.branches])

/-! ## Reading between anchors -/

/-- The reading with one more group open around all that it has read. -/
def Reading.under (g : OpenGroup) (r : Reading) : Reading :=
  { r with openGroups := r.openGroups ++ [g] }

theorem step_under {r r' : Reading} {l : Lexeme} (g : OpenGroup) (h : r.step l = .ok r') :
    (r.under g).step l = .ok (r'.under g) := by
  cases l with
  | times least most greedy =>
    simp only [Reading.step, Reading.under] at h ⊢
    split at h
    · cases h
      simp
    · cases h
  | openCapture name =>
    cases name with
    | none =>
      cases h
      rfl
    | some name =>
      rw [Reading.step] at h ⊢
      split at h
      · cases h
      · next hname =>
        cases h
        exact if_neg hname
  | close =>
    simp only [Reading.step, Reading.under] at h ⊢
    split at h
    · next heq =>
      cases h
      simp [heq]
    · cases h
  | _ =>
    cases h
    rfl

theorem foldlM_under {ls : List Lexeme} {r r' : Reading} (g : OpenGroup)
    (h : ls.foldlM Reading.step r = .ok r') :
    ls.foldlM Reading.step (r.under g) = .ok (r'.under g) := by
  induction ls generalizing r with
  | nil =>
    cases h
    rfl
  | cons l ls ih =>
    rw [List.foldlM_cons] at h ⊢
    obtain ⟨s, hs, h⟩ := bind_eq_ok.1 h
    rw [step_under g hs, ok_bind]
    exact ih h

/-- Lexemes that can be read by themselves are read into the same tree between anchors. -/
theorem ofLexemes_anchored {ls : List Lexeme} {whole : Nested}
    (h : Nested.ofLexemes ls = .ok whole) :
    Nested.ofLexemes ([.lineStart, .openPlain []] ++ ls ++ [.close, .lineEnd]) =
      .ok ⟨whole.expr.anchored, whole.depth + 2⟩ := by
  obtain ⟨r, hr, hfinish⟩ := bind_eq_ok.1 h
  rw [Reading.finish] at hfinish
  split at hfinish
  · next hempty =>
    cases hfinish
    obtain ⟨openGroups, level, flags, count, names⟩ := r
    obtain rfl := List.isEmpty_iff.1 hempty
    let g : OpenGroup := ⟨Level.push {} (.look .textStart) 0, {}, none⟩
    have hopen : [.lineStart, .openPlain []].foldlM Reading.step {} =
        .ok (Reading.under g {}) := rfl
    have hclose : [.close, .lineEnd].foldlM Reading.step
        (Reading.under g ⟨[], level, flags, count, names⟩) =
          .ok ⟨[], (g.close level.whole).push (.look .textEnd) 0, {}, count, names⟩ := rfl
    have hwhole : ((g.close level.whole).push (.look .textEnd) 0).whole =
        ⟨.oneOf [level.whole.expr.anchored], max 0 (max 0 (level.whole.depth + 1)) + 1⟩ := rfl
    rw [Nested.ofLexemes, List.foldlM_append, List.foldlM_append, hopen, ok_bind,
      foldlM_under g hr, ok_bind, hclose, ok_bind]
    simp [Reading.finish, hwhole, oneOf_anchored]
  · cases hfinish

theorem lexemes_anchor (cs : List Char) :
    lexemes 0 ("^(?:".toList ++ cs) =
      (lexemes 0 cs).map ([.lineStart, .openPlain []] ++ ·) := by
  have hstart : readLexeme '^' ('(' :: '?' :: ':' :: cs) =
    .ok (.lineStart, '(' :: '?' :: ':' :: cs) := rfl
  have hgroup : readLexeme '(' ('?' :: ':' :: cs) = .ok (.openPlain [], cs) := rfl
  have htext : "^(?:".toList ++ cs = '^' :: '(' :: '?' :: ':' :: cs := rfl
  rw [htext, lexemes_step hstart, lexemes_step hgroup]
  cases lexemes 0 cs <;> rfl

theorem lexemes_anchored {body : List Char} {ls : List Lexeme} (h : lexemes 0 body = .ok ls) :
    lexemes 0 ("^(?:".toList ++ body ++ ")$".toList) =
      .ok ([.lineStart, .openPlain []] ++ ls ++ [.close, .lineEnd]) := by
  have htail : Parted ")$".toList := ⟨_, .inr rfl⟩
  have hclose : lexemes 0 ")$".toList = .ok [.close, .lineEnd] := rfl
  have hbody : lexemes 0 (body ++ ")$".toList) = .ok (ls ++ [.close, .lineEnd]) := by
    rw [lexemes_append h htail, hclose]
    rfl
  rw [List.append_assoc, lexemes_anchor, hbody]
  rfl

theorem read_anchored {body : List Char} {ls : List Lexeme} {whole : Nested}
    (hlexemes : lexemes 0 body = .ok ls) (hwhole : Nested.ofLexemes ls = .ok whole)
    (hdepth : whole.depth + 2 ≤ depthLimit) :
    Expr.read ("^(?:".toList ++ body ++ ")$".toList) =
      if whole.expr.anchored.isTooLarge then .error .tooLarge else .ok whole.expr.anchored := by
  have hshallow : ¬ depthLimit < whole.depth + 2 := Nat.not_lt.2 hdepth
  rw [Expr.read, lexemes_anchored hlexemes, ok_bind, ofLexemes_anchored hwhole, ok_bind]
  simp only [if_neg hshallow]
  rfl

/-! ## What an anchored expression matches -/

/-- A text that can be read by itself: it is cut into lexemes, and these are put together. -/
def WellFormed (body : List Char) : Prop :=
  ∃ whole, lexemes 0 body >>= Nested.ofLexemes = .ok whole

instance (body : List Char) : Decidable (WellFormed body) :=
  match h : lexemes 0 body >>= Nested.ofLexemes with
  | .ok whole => .isTrue ⟨whole, h⟩
  | .error e => .isFalse (by simp [WellFormed, h])

theorem span?_zero {marks : List Mark} {t : List Char} (h : ∀ k ∈ marks, 0 < k.number) :
    (Match.mk t (⟨0, false, j⟩ :: (marks ++ [⟨0, true, i⟩]))).span? 0 = some (i, j) := by
  have hnone : marks.find? (fun k => k.number == 0 && k.opens) = none := by
    rw [List.find?_eq_none]
    intro k hk
    have := h k hk
    simp
    omega
  simp [Match.span?, List.find?_append, hnone]

theorem expr_of_read_anchored {body : List Char} {whole : Nested}
    (hbody : lexemes 0 body >>= Nested.ofLexemes = .ok whole)
    (h : Expr.read ("^(?:".toList ++ body ++ ")$".toList) = .ok e) : e = whole.expr.anchored := by
  obtain ⟨ls, hls, hwhole⟩ := bind_eq_ok.1 hbody
  rw [Expr.read, lexemes_anchored hls, ok_bind, ofLexemes_anchored hwhole, ok_bind] at h
  split at h
  · cases h
  · split at h <;> cases h
    rfl

theorem span?_of_match?_anchored {body : List Char} {r : Regex} {path : String} {m : Match}
    (hbody : WellFormed body)
    (hread : Regex.read (String.ofList ("^(?:".toList ++ body ++ ")$".toList)) = .ok r)
    (hm : r.match? path = some m) : m.span? 0 = some (0, path.toList.length) := by
  obtain ⟨whole, hwhole⟩ := hbody
  obtain ⟨e, he, rfl⟩ := except_map_eq_ok.1 hread
  rw [String.toList_ofList] at he
  obtain ⟨htext, i, j, hi, htakes⟩ := takes_of_match? hm
  obtain ⟨marks, hinside, hmarks⟩ := takes_group.1 htakes
  have hpos : ∀ k ∈ marks, 0 < k.number := fun k hk =>
    groups_pos_of_read he _ (hinside.number_mem k hk)
  obtain rfl := expr_of_read_anchored hwhole he
  obtain ⟨rfl, rfl, -⟩ := (takes_anchored hi).1 hinside
  obtain ⟨t, m⟩ := m
  subst hmarks
  exact span?_zero hpos

end Signpost.Regex
