import Signpost.Proofs.Regex.Accepting
import Signpost.Proofs.Rule.Plain
import Signpost.Proofs.Rule.References
import Signpost.Proofs.Text

/-!
# Rules that stand for themselves

A rule without colon and opening parenthesis is not read as an expression. Whatever else stands in
it is escaped, so it matches its own text only, without the slashes at its ends.
-/

namespace Signpost.Pattern

variable {rule : String} {setting : CategorySetting}

theorem body_literal {source : List Char} (hcolon : ':' ∉ source) (hparen : '(' ∉ source) :
    body setting source = (Regex.escape (Text.trim Text.isSlash source), []) := by
  have hplain : ¬ (source.contains ':' || source.contains '(') = true := by simp [hcolon, hparen]
  rw [body, if_neg hplain]

theorem body_of_literal (pages : Pages) (setting : CategorySetting) (hcolon : ':' ∉ rule.toList)
    (hparen : '(' ∉ rule.toList) :
    body setting (pages.resolve (Text.trimEnd Text.isSlash rule.toList)) =
      (Regex.escape (Text.trimSlashes rule).toList, []) := by
  have hsubset := (Text.trimEnd_prefix Text.isSlash rule.toList).subset
  have htrimmed : ':' ∉ Text.trimEnd Text.isSlash rule.toList := fun hmem => hcolon (hsubset hmem)
  rw [Pages.resolve_of_notMem htrimmed, body_literal htrimmed fun hmem => hparen (hsubset hmem),
    Text.trim_trimEnd, Text.trimSlashes, String.toList_ofList]

/-- A rule without colon and opening parenthesis is compiled, unless it is too large, to a pattern
without captures that matches the rule without the slashes at its ends and nothing else. -/
theorem compile_literal (pages : Pages) (setting : CategorySetting) (hcolon : ':' ∉ rule.toList)
    (hparen : '(' ∉ rule.toList) :
    ∃ p : Pattern,
      compile rule pages setting = (if p.regex.expr.isTooLarge then .error .tooLarge else .ok p) ∧
      (p.captureCount = 0 ∧ p.kinds = []) ∧
      ∀ path : String, p.regex.isMatch path = true ↔ path = Text.trimSlashes rule := by
  let text := (Text.trimSlashes rule).toList
  have hbody := body_of_literal pages setting hcolon hparen
  have hread := Regex.read_layout (Plain.lexes_escape text).eq
  have hanchor : (anchor (bodyText rule pages setting)).toList =
      "^(?:".toList ++ Regex.escape text ++ ")$".toList := by
    rw [toList_anchor, bodyText, hbody]
  rw [← hanchor] at hread
  obtain ⟨p, hp, hexpr, hkinds, -⟩ := compile_of_read hread
  have hcount := Regex.groupCount_layout hexpr
  rw [← List.append_nil (text.map _), Regex.Layout.exprs_letters, Regex.Layout.exprs,
    List.append_nil] at hexpr
  refine ⟨p, hp, ⟨?_, hkinds.trans (by rw [hbody])⟩, fun path => ?_⟩
  · rw [captureCount, hcount]
    simp [Regex.Layout.fields]
  · rw [Regex.isMatch_anchored hexpr (Regex.spells_letters text).accepts, String.toList_inj]

theorem compile_literal_signs :
    (':' ∉ "/feed.xml?[a|b]*^$\\#&&-~ \n/".toList ∧ '(' ∉ "/feed.xml?[a|b]*^$\\#&&-~ \n/".toList) ∧
      ∃ p : Pattern, compile "/feed.xml?[a|b]*^$\\#&&-~ \n/" .empty {} = .ok p ∧
        (p.captureCount = 0 ∧ p.kinds = []) ∧
        ∀ path : String, p.regex.isMatch path = true ↔
          path = Text.trimSlashes "/feed.xml?[a|b]*^$\\#&&-~ \n/" := by
  have hcolon : ':' ∉ "/feed.xml?[a|b]*^$\\#&&-~ \n/".toList := by decide
  have hparen : '(' ∉ "/feed.xml?[a|b]*^$\\#&&-~ \n/".toList := by decide
  have hsome : (compile "/feed.xml?[a|b]*^$\\#&&-~ \n/" .empty {}).isOk = true := by decide +kernel
  obtain ⟨p, hcompile, hmeans⟩ := compile_literal .empty {} hcolon hparen
  exact ⟨⟨hcolon, hparen⟩, p, compile_of_isOk hcompile hsome, hmeans⟩

end Signpost.Pattern
