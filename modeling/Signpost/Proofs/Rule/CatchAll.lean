import Signpost.Proofs.Regex.Accepting
import Signpost.Proofs.Rule.Plain

/-!
# Catch-alls

A rule that ends with `:all` matches what stands before it, and whatever follows that behind a
slash, up to a line feed. Without a slash nothing follows, so a lone `:all` does not match the
segments that a lone `:any` does.
-/

namespace Signpost.Pattern

open Plain (StartsInside StopsInside)

variable {start : String} {pages : Pages} {setting : CategorySetting} {kind : Kind}

/-- Something behind the start of a path, with a slash between them unless the start is empty. -/
def under (start rest : String) : String := if start = "" then rest else start ++ "/" ++ rest

/-- Nothing, or segments whose characters have no meaning in rules and in expressions. -/
def IsStart (start : String) : Prop :=
  start = "" ∨ ∀ segment ∈ start.toList.splitOn '/', Plain.isLiteral segment = true

/-! ## From the rule to its expression -/

theorem IsStart.letters (h : IsStart start) :
    ∀ c ∈ start.toList, c ≠ ':' ∧ Regex.isOperator c = false := by
  rcases h with rfl | h
  · exact fun c hc => nomatch hc
  · exact Plain.letters_of_segments (List.all_eq_true.2 h)

theorem IsStart.startsInside (h : IsStart start) (hne : start ≠ "") :
    StartsInside start.toList := by
  obtain ⟨c, cs, hcs⟩ := List.exists_cons_of_ne_nil (mt String.toList_eq_nil_iff.1 hne)
  refine ⟨c, cs, hcs, ?_⟩
  rintro rfl
  have hsegments := h.resolve_left hne
  rw [hcs, List.splitOn_cons_eq_if_modifyHead, if_pos (beq_self_eq_true '/')] at hsegments
  cases hsegments [] List.mem_cons_self

/-- What is written before the group of a wildcard that stands behind a start. -/
def lead (start : String) (kind : Kind) : List Char :=
  if start = "" ∨ Piece.takesSlash kind = true then start.toList else start.toList ++ ['/']

theorem IsStart.lead (h : IsStart start) (kind : Kind) :
    ∀ c ∈ lead start kind, c ≠ ':' ∧ Regex.isOperator c = false := by
  unfold Pattern.lead
  split
  · exact h.letters
  · rw [List.forall_mem_append]
    exact ⟨h.letters, by simp [Regex.isOperator]⟩

theorem toList_under (hne : start ≠ "") (rest : String) :
    (under start rest).toList = start.toList ++ '/' :: rest.toList := by
  rw [under, if_neg hne, String.toList_append, String.toList_append, List.append_assoc]
  rfl

theorem cut_under (h : IsStart start) (kind : Kind) :
    ∃ slash, Piece.cut (under start (":" ++ kind.name)).toList =
      (lead start kind).map .char ++ [.wildcard slash kind] := by
  have hname : Piece.cut (":" ++ kind.name).toList = [.wildcard false kind] := by
    cases kind <;> rfl
  have hslash : Piece.cut ('/' :: (":" ++ kind.name).toList) =
      if Piece.takesSlash kind = true then [.wildcard true kind]
      else [.char '/', .wildcard false kind] := by
    cases kind <;> rfl
  by_cases hne : start = ""
  · subst hne
    exact ⟨false, by simpa [under, lead] using hname⟩
  · rw [toList_under hne, Piece.cut, Piece.cutFrom_letters h.letters (by simp), ← Piece.cut, hslash]
    by_cases htakes : Piece.takesSlash kind = true
    · exact ⟨true, by simp [lead, htakes]⟩
    · exact ⟨false, by simp [lead, htakes, hne]⟩

theorem expandRule_under (h : IsStart start) (kind : Kind) :
    expandRule setting (under start (":" ++ kind.name)).toList =
      (lead start kind ++ Piece.capture setting kind, [some kind]) := by
  obtain ⟨slash, hcut⟩ := cut_under h kind
  rw [expandRule, hcut, List.flatMap_append, List.flatMap_append, Plain.expansion_letters]
  simp [Piece.expansion, Piece.kinds, List.flatMap_map]

theorem resolve_under (h : IsStart start) (kind : Kind) :
    pages.resolve (under start (":" ++ kind.name)).toList =
      (under start (":" ++ kind.name)).toList := by
  have hstart : ∀ c ∈ start.toList, c ≠ ':' ∧ c ≠ '(' := by
    intro c hc
    obtain ⟨hcolon, hoperator⟩ := h.letters c hc
    refine ⟨hcolon, ?_⟩
    rintro rfl
    cases hoperator
  by_cases hne : start = ""
  · subst hne
    cases kind <;> rfl
  · rw [toList_under hne, Pages.resolve, Pages.resolveFrom_letters hstart]
    cases kind <;> rfl

theorem body_under (h : IsStart start) (kind : Kind)
    (hgroup : StartsInside (Piece.capture setting kind) ∧
      StopsInside (Piece.capture setting kind)) :
    bodyText (under start (":" ++ kind.name)) pages setting =
      lead start kind ++ Piece.capture setting kind := by
  -- Between the anchors stands the group of the wildcard, behind the letters of the start.
  have hname : '/' ∉ kind.name.toList := by cases kind <;> decide
  have hstops : StopsInside (under start (":" ++ kind.name)).toList := by
    have hrest : StopsInside (":" ++ kind.name).toList := by
      refine Plain.stopsInside_of_notMem ?_ ?_ <;> simp [hname]
    by_cases hne : start = ""
    · rwa [under, if_pos hne]
    · rw [toList_under hne]
      exact (hrest.append ['/']).append _
  have hcolon : (under start (":" ++ kind.name)).toList.contains ':' = true := by
    by_cases hne : start = "" <;> simp [under, hne]
  have hstarts : StartsInside (lead start kind ++ Piece.capture setting kind) := by
    by_cases hne : start = ""
    · simpa [lead, hne] using hgroup.1
    · refine StartsInside.append ?_ _
      unfold lead
      split
      · exact h.startsInside hne
      · exact (h.startsInside hne).append _
  rw [bodyText, Plain.trimEnd_of_stopsInside hstops, resolve_under h, body, hcolon, Bool.true_or,
    if_pos rfl, expandRule_under h]
  simp only [Plain.trim_of_inside hstarts (hgroup.2.append _)]

/-! ## What the rules match -/

theorem compile_under (h : IsStart start) (pages : Pages) (setting : CategorySetting) (kind : Kind)
    {f : Regex.Field} (hplain : f.Plain) (hcapture : Piece.capture setting kind = f.text) :
    ∃ p : Pattern,
      compile (under start (":" ++ kind.name)) pages setting =
        (if p.regex.expr.isTooLarge then .error .tooLarge else .ok p) ∧
      ∀ path : String, p.regex.isMatch path = true ↔
        ∃ word, f.takes word ∧ path.toList = lead start kind ++ word := by
  let layout : Regex.Layout := (lead start kind).map .letter ++ [.field f]
  have hbody : bodyText (under start (":" ++ kind.name)) pages setting =
      lead start kind ++ f.text := by
    rw [← hcapture]
    exact body_under h kind (hcapture ▸ Plain.text_inside f)
  have hlexemes : Plain.Lexes (bodyText (under start (":" ++ kind.name)) pages setting)
      (layout.flatMap Regex.Atom.lexemes) := by
    rw [hbody, List.flatMap_append]
    exact (Plain.lexes_letters fun c hc => (h.lead _ c hc).2).append (Plain.lexes_field hplain)
  have hread := Regex.read_layout hlexemes.eq
  rw [← toList_anchor, Regex.Layout.exprs_letters] at hread
  obtain ⟨p, hp, hexpr, -⟩ := compile_of_read hread
  have haccepts := (Regex.spells_body f).accepts.group (n := 1)
  exact ⟨p, hp, Regex.isMatch_anchored hexpr
    (haccepts.letters_append _ (Regex.Expr.isPart_group _ _))⟩

theorem compile_all (h : IsStart start) (pages : Pages) (setting : CategorySetting) :
    ∃ p : Pattern,
      compile (under start ":all") pages setting =
        (if p.regex.expr.isTooLarge then .error .tooLarge else .ok p) ∧
      ∀ path : String, p.regex.isMatch path = true ↔
        path = start ∨ ∃ rest : String, '\n' ∉ rest.toList ∧ path = start ++ "/" ++ rest := by
  have hplain : Regex.Field.remainder.Plain := by
    rintro cs ⟨⟩
  obtain ⟨p, hp, hmatch⟩ := compile_under h pages setting .all hplain rfl
  have hlead : lead start .all = start.toList := if_pos (.inr rfl)
  refine ⟨p, hp, fun path => ?_⟩
  rw [hmatch, hlead]
  constructor
  · rintro ⟨_, rfl | ⟨rest, hrest, rfl⟩, hpath⟩
    · exact .inl (String.toList_inj.1 (by rw [hpath, List.append_nil]))
    · refine .inr ⟨String.ofList rest, by rwa [String.toList_ofList], String.toList_inj.1 ?_⟩
      simp [hpath]
  · rintro (rfl | ⟨rest, hrest, rfl⟩)
    · exact ⟨[], .inl rfl, (List.append_nil _).symm⟩
    · exact ⟨'/' :: rest.toList, .inr ⟨_, hrest, rfl⟩, by simp⟩

theorem toList_under_lead (start rest : String) :
    (under start rest).toList = lead start .any ++ rest.toList := by
  by_cases hne : start = ""
  · simp [under, lead, hne]
  · simp [toList_under hne, lead, hne, Piece.takesSlash]

theorem compile_any (h : IsStart start) (pages : Pages) (setting : CategorySetting) :
    ∃ p : Pattern,
      compile (under start ":any") pages setting =
        (if p.regex.expr.isTooLarge then .error .tooLarge else .ok p) ∧
      ∀ path : String, p.regex.isMatch path = true ↔
        ∃ value : String, Plain.IsSegment value.toList ∧ path = under start value := by
  have hplain : Regex.Field.segment.Plain := by
    rintro cs ⟨⟩
  obtain ⟨p, hp, hmatch⟩ := compile_under h pages setting .any hplain rfl
  refine ⟨p, hp, fun path => ?_⟩
  rw [hmatch]
  constructor
  · rintro ⟨value, hvalue, hpath⟩
    refine ⟨String.ofList value, by rwa [String.toList_ofList], String.toList_inj.1 ?_⟩
    rw [hpath, toList_under_lead, String.toList_ofList]
  · rintro ⟨value, hvalue, rfl⟩
    exact ⟨value.toList, hvalue, toList_under_lead start value⟩

/-- A rule that ends with `:all` is compiled, unless it is too large, and matches what stands before
it, alone or with a slash and anything but line feeds behind it. So it matches all that the rule
with `:any` in its place matches, but for segments with a line feed and but for a start without
segments, where it needs a slash that `:any` does without. -/
theorem compile_catchAll (h : IsStart start) (pages : Pages) (setting : CategorySetting) :
    ∃ p q : Pattern,
      compile (under start ":all") pages setting =
        (if p.regex.expr.isTooLarge then .error .tooLarge else .ok p) ∧
      compile (under start ":any") pages setting =
        (if q.regex.expr.isTooLarge then .error .tooLarge else .ok q) ∧
      (∀ path : String, p.regex.isMatch path = true ↔
        path = start ∨ ∃ rest : String, '\n' ∉ rest.toList ∧ path = start ++ "/" ++ rest) ∧
      (∀ path : String, q.regex.isMatch path = true ↔
        ∃ value : String, Plain.IsSegment value.toList ∧ path = under start value) ∧
      ∀ value : String, Plain.IsSegment value.toList →
        (p.regex.isMatch (under start value) = true ↔ start ≠ "" ∧ '\n' ∉ value.toList) := by
  obtain ⟨p, hp, hall⟩ := compile_all h pages setting
  obtain ⟨q, hq, hany⟩ := compile_any h pages setting
  refine ⟨p, q, hp, hq, hall, hany, fun value hvalue => ?_⟩
  rw [hall]
  by_cases hne : start = ""
  · -- Without a start the path is one segment: it is not empty, and has no slash.
    subst hne
    simp only [ne_eq, not_true_eq_false, false_and, iff_false]
    rintro (hempty | ⟨rest, -, hrest⟩)
    · exact hvalue.1 (congrArg String.toList hempty)
    · refine hvalue.2 ?_
      have hpath : value = "" ++ "/" ++ rest := hrest
      simp [hpath]
  · rw [and_iff_right hne, under, if_neg hne]
    constructor
    · rintro (hstart | ⟨rest, hrest, hpath⟩)
      · simpa using congrArg String.toList hstart
      · have hsame : value = rest := String.toList_inj.1 (by simpa using congrArg String.toList hpath)
        rwa [hsame]
    · exact fun hvalue => .inr ⟨value, hvalue, rfl⟩

theorem compile_catchAll_docs :
    IsStart "docs/guide" ∧ ∃ p q : Pattern,
      compile "docs/guide/:all" .empty {} = .ok p ∧ compile "docs/guide/:any" .empty {} = .ok q ∧
      (∀ path : String, p.regex.isMatch path = true ↔ path = "docs/guide" ∨
        ∃ rest : String, '\n' ∉ rest.toList ∧ path = "docs/guide" ++ "/" ++ rest) ∧
      ∀ value : String, Plain.IsSegment value.toList →
        q.regex.isMatch (under "docs/guide" value) = true ∧
          (p.regex.isMatch (under "docs/guide" value) = true ↔ '\n' ∉ value.toList) := by
  have hstart : IsStart "docs/guide" := .inr (by decide)
  have hsome : (compile "docs/guide/:all" .empty {}).isOk = true ∧
      (compile "docs/guide/:any" .empty {}).isOk = true := by decide +kernel
  obtain ⟨p, q, hp, hq, hall, hany, hboth⟩ := compile_catchAll hstart .empty {}
  refine ⟨hstart, p, q, compile_of_isOk hp hsome.1, compile_of_isOk hq hsome.2, hall,
    fun value hvalue => ⟨?_, ?_⟩⟩
  · exact (hany _).2 ⟨value, hvalue, rfl⟩
  · rw [hboth value hvalue, and_iff_right (by decide)]

/-- A lone `:all` misses a segment, and behind a start it misses one with a line feed. -/
theorem catchAll_misses_segments :
    (compile ":all" .empty {}).toOption.map (·.regex.isMatch "about") = some false ∧
      (compile ":any" .empty {}).toOption.map (·.regex.isMatch "about") = some true ∧
      (compile "docs/:all" .empty {}).toOption.map (·.regex.isMatch "docs/a\nb") = some false ∧
      (compile "docs/:any" .empty {}).toOption.map (·.regex.isMatch "docs/a\nb") = some true := by
  decide +kernel

end Signpost.Pattern
