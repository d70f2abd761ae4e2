import Signpost.Proofs.Regex.Anchors
import Signpost.Rule.Pattern

/-!
# Anchoring

A compiled rule is meant to match whole paths. The anchors are added to the text of its expression,
so they hold for every rule whose expression can be read without them. They do not hold for a text
that closes the group of the anchors itself and opens another one.
-/

namespace Signpost.Pattern

variable {rule : String} {pages : Pages} {setting : CategorySetting} {p : Pattern}

def bodyText (rule : String) (pages : Pages) (setting : CategorySetting) : List Char :=
  (body setting (pages.resolve (Text.trimEnd Text.isSlash rule.toList))).1

theorem toList_anchor (body : List Char) :
    (anchor body).toList = "^(?:".toList ++ body ++ ")$".toList :=
  String.toList_ofList

theorem compile_eq (rule : String) (pages : Pages) (setting : CategorySetting) :
    compile rule pages setting =
      (Regex.Expr.read (anchor (bodyText rule pages setting)).toList).map fun expr =>
        { source := String.ofList (pages.resolve (Text.trimEnd Text.isSlash rule.toList))
          regex := ⟨anchor (bodyText rule pages setting), expr⟩
          kinds := (body setting (pages.resolve (Text.trimEnd Text.isSlash rule.toList))).2 } := by
  rw [compile]
  change (Regex.read (anchor (bodyText rule pages setting)) >>= _) = _
  rw [Regex.read]
  cases Regex.Expr.read (anchor (bodyText rule pages setting)).toList <;> rfl

theorem compile_of_read {e : Regex.Expr}
    (h : Regex.Expr.read (anchor (bodyText rule pages setting)).toList =
      if e.isTooLarge then .error .tooLarge else .ok e) :
    ∃ p : Pattern,
      compile rule pages setting = (if p.regex.expr.isTooLarge then .error .tooLarge else .ok p) ∧
      p.regex.expr = e ∧
      p.kinds = (body setting (pages.resolve (Text.trimEnd Text.isSlash rule.toList))).2 ∧
      p.source.toList = pages.resolve (Text.trimEnd Text.isSlash rule.toList) := by
  let source := pages.resolve (Text.trimEnd Text.isSlash rule.toList)
  let p : Pattern :=
    { source := String.ofList source
      regex := ⟨anchor (bodyText rule pages setting), e⟩
      kinds := (body setting source).2 }
  refine ⟨p, ?_, rfl, rfl, String.toList_ofList⟩
  rw [compile_eq, h]
  exact apply_ite ..

theorem compile_of_isOk
    (h : compile rule pages setting = if p.regex.expr.isTooLarge then .error .tooLarge else .ok p)
    (hok : (compile rule pages setting).isOk = true) : compile rule pages setting = .ok p := by
  rw [h] at hok ⊢
  split at hok
  · cases hok
  · rw [if_neg ‹_›]

theorem source_of_compile (h : compile rule pages setting = .ok p) :
    p.source.toList = pages.resolve (Text.trimEnd Text.isSlash rule.toList) := by
  rw [compile_eq, except_map_eq_ok] at h
  obtain ⟨expr, -, rfl⟩ := h
  exact String.toList_ofList

theorem read_of_compile (h : compile rule pages setting = .ok p) :
    Regex.read (anchor (bodyText rule pages setting)) = .ok p.regex := by
  rw [compile_eq, except_map_eq_ok] at h
  obtain ⟨expr, hexpr, rfl⟩ := h
  rw [Regex.read, hexpr]
  rfl

theorem read_text_of_compile (h : compile rule pages setting = .ok p) :
    Regex.Expr.read p.regex.text.toList = .ok p.regex.expr := by
  rw [compile_eq, except_map_eq_ok] at h
  obtain ⟨expr, hexpr, rfl⟩ := h
  exact hexpr

/-- The rule matches whole paths only, and is refused if its expression cannot be read by itself. -/
structure Anchored (rule : String) (pages : Pages) (setting : CategorySetting) : Prop where
  whole : ∀ p path m, compile rule pages setting = .ok p → p.regex.match? path = some m →
    m.span? 0 = some (0, path.toList.length)
  refused : ¬ Regex.WellFormed (bodyText rule pages setting) →
    ∃ e, compile rule pages setting = .error e

theorem whole_of_wellFormed (hbody : Regex.WellFormed (bodyText rule pages setting))
    (h : compile rule pages setting = .ok p) {path : String} {m : Regex.Match}
    (hm : p.regex.match? path = some m) : m.span? 0 = some (0, path.toList.length) :=
  Regex.span?_of_match?_anchored hbody (read_of_compile h) hm

/-- Anchors hold for exactly the rules that are refused or that can be read without them. -/
theorem anchored_iff (rule : String) (pages : Pages) (setting : CategorySetting) :
    Anchored rule pages setting ↔
      Regex.WellFormed (bodyText rule pages setting) ∨
        ∃ e, compile rule pages setting = .error e := by
  constructor
  · intro h
    by_cases hbody : Regex.WellFormed (bodyText rule pages setting)
    · exact .inl hbody
    · exact .inr (h.refused hbody)
  · rintro (hbody | ⟨e, he⟩)
    · exact ⟨fun _ _ _ h hm => whole_of_wellFormed hbody h hm, fun hne => absurd hbody hne⟩
    · refine ⟨fun p path m h _ => ?_, fun _ => ⟨e, he⟩⟩
      rw [he] at h
      cases h

/-- This rule closes the group of its anchors, and one letter is enough for it. -/
theorem not_anchored_unbalanced : ¬ Anchored "a)|(b" .empty {} := by
  have hpart : ((compile "a)|(b" .empty {}).toOption.bind fun p =>
      (p.regex.match? "axyz").bind (·.span? 0)) = some (0, 1) := by decide +kernel
  intro h
  obtain ⟨p, hp, hspan⟩ := Option.bind_eq_some_iff.1 hpart
  obtain ⟨m, hm, hspan⟩ := Option.bind_eq_some_iff.1 hspan
  have hwhole := h.whole p "axyz" m (ok_of_toOption hp) hm
  rw [hspan] at hwhole
  cases hwhole

end Signpost.Pattern
