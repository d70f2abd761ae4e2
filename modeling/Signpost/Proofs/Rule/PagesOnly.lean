import Signpost.Proofs.Rule.References
import Signpost.Proofs.Rule.Untyped

/-!
# Rules whose colons belong to references

A reference to a page is replaced by the path of the page, and the rule is searched for wildcards
after that. So where every colon of a rule belongs to a reference, what the rule has of colons and
of names of kinds is what the paths have of them.
-/

namespace Signpost

variable {pages : Pages} {cs w x y : List Char} {c : Char} {paths : List String}

/-! ## Words in a text -/

theorem infix_append_cons_iff (hc : c ∉ w) : w <:+: x ++ c :: y ↔ w <:+: x ∨ w <:+: y := by
  -- The word does not go across a character that it does not have.
  constructor
  · intro h
    rcases List.infix_append_iff.1 h with h | h | ⟨u, v, rfl, hu, hv⟩
    · exact .inl h
    · rcases List.infix_cons_iff.1 h with h | h
      · rcases List.prefix_cons_iff.1 h with rfl | ⟨t, rfl, -⟩
        · exact .inr List.nil_infix
        · exact absurd List.mem_cons_self hc
      · exact .inr h
    · rcases List.prefix_cons_iff.1 hv with rfl | ⟨t, rfl, -⟩
      · rw [List.append_nil]
        exact .inl hu.isInfix
      · exact absurd (List.mem_append_right u List.mem_cons_self) hc
  · rintro (h | h)
    · exact h.trans (List.prefix_append _ _).isInfix
    · exact h.trans ((List.suffix_cons c y).trans (List.suffix_append _ _)).isInfix

theorem Text.infix_trim_iff {p : Char → Bool} (hw : ∀ c ∈ w, p c = false) :
    w <:+: trim p cs ↔ w <:+: cs := by
  constructor
  · intro h
    have hend := trimEnd_prefix p (trimStart p cs)
    have hstart : trimStart p cs <:+ cs := List.dropWhile_suffix p
    exact h.trans (hend.isInfix.trans hstart.isInfix)
  · rintro ⟨before, behind, rfl⟩
    cases hlast : w.getLast? with
    | none =>
      rw [List.getLast?_eq_none_iff.1 hlast]
      exact List.nil_infix
    | some d =>
      cases w with
      | nil => cases hlast
      | cons c w =>
        have hd : p d = false := hw d (List.mem_of_getLast? hlast)
        have hend : (trimStart p before ++ c :: w).getLast? = some d := by
          rw [List.getLast?_append, hlast]
          rfl
        rw [List.append_assoc, List.cons_append, trim,
          trimStart_append_cons (hw c List.mem_cons_self), ← List.cons_append, ← List.append_assoc,
          trimEnd_append hend hd]
        exact ⟨_, _, rfl⟩

/-! ## Rules and what they refer to -/

namespace Pages

open Reference

/-- Every colon of the text belongs to a reference to a page with one of these paths, in order. -/
inductive RefersOnly (pages : Pages) : List Char → (paths : List String) → Prop
  | nothing {cs : List Char} (hcolon : ':' ∉ cs) : RefersOnly pages cs []
  | reference {before digits rest : List Char} {id : PageId} {path : String} {paths : List String}
    (hbefore : ':' ∉ before) (hid : PageId.ofDigits? digits = some id)
    (hpage : pages.get? id = some path) (hrest : ∀ c ∈ rest.head?, c.isDigit = false)
    (hbehind : RefersOnly pages rest paths) :
    RefersOnly pages (before ++ (":page:".toList ++ digits ++ rest)) (path :: paths)

theorem RefersOnly.trimEnd (h : RefersOnly pages cs paths) :
    RefersOnly pages (Text.trimEnd Text.isSlash cs) paths := by
  induction h with
  | nothing hcolon =>
    exact .nothing fun hmem => hcolon ((Text.trimEnd_prefix _ _).subset hmem)
  | reference hbefore hid hpage hrest hbehind ih =>
    rw [trimEnd_reference hid]
    exact .reference hbefore hid hpage (fun c hc => hrest c (Text.head?_of_head?_trimEnd hc)) ih

theorem RefersOnly.infix_resolve_iff (hcolon : ':' ∈ w) (hparens : '(' ∉ w ∧ ')' ∉ w)
    (hslash : '/' ∉ w) (h : RefersOnly pages cs paths) :
    w <:+: pages.resolve cs ↔ ∃ path ∈ paths, w <:+: path.toList := by
  have hnone : ∀ {cs : List Char}, ':' ∉ cs → ¬ w <:+: cs := fun hcs h => hcs (h.subset hcolon)
  induction h with
  | nothing hcs =>
    rw [resolve_of_notMem hcs]
    simp [hnone hcs]
  | @reference before digits rest id path paths hbefore hid hpage hrest hbehind ih =>
    have hleft : ':' ∉ leftBefore before := by
      unfold leftBefore
      split
      · exact fun hmem => hbefore (List.mem_of_mem_dropLast hmem)
      · exact hbefore
    have hright : w <:+: pages.resolve (leftBehind rest) ↔ ∃ path ∈ paths, w <:+: path.toList := by
      refine Iff.trans (Iff.symm ?_) ih
      rw [resolve_closing rest]
      unfold closing
      split
      · have hcross := infix_append_cons_iff (x := []) (y := pages.resolve (leftBehind rest)) hparens.2
        rw [List.singleton_append, ← List.nil_append (')' :: _), hcross]
        exact or_iff_right (hnone List.not_mem_nil)
      · rfl
    have hpath : w <:+: Text.trim Text.isSlash path.toList ↔ w <:+: path.toList := by
      refine Text.infix_trim_iff fun c hc => ?_
      rw [Text.isSlash, beq_eq_false_iff_ne]
      exact fun heq => hslash (heq ▸ hc)
    have hsource : pages.resolve (before ++ (":page:".toList ++ digits ++ rest)) =
        leftBefore before ++ '(' :: (Text.trim Text.isSlash path.toList ++
          ')' :: pages.resolve (leftBehind rest)) := by
      rw [resolve_reference hid hpage hrest, resolve_of_notMem hleft]
      simp [written]
    rw [hsource, infix_append_cons_iff hparens.1, infix_append_cons_iff hparens.2, hpath, hright,
      or_iff_right (hnone hleft)]
    simp

/-! ## Colons and names -/

theorem RefersOnly.colon_mem_iff (h : RefersOnly pages cs paths) :
    ':' ∈ pages.resolve cs ↔ ∃ path ∈ paths, ':' ∈ path.toList := by
  have hsingle : ∀ t : List Char, ':' ∈ t ↔ [':'] <:+: t := by
    intro t
    constructor
    · intro hmem
      obtain ⟨before, behind, rfl⟩ := List.append_of_mem hmem
      exact ⟨before, behind, by simp⟩
    · exact fun hinfix => hinfix.subset List.mem_cons_self
  simp only [hsingle]
  exact h.infix_resolve_iff (by simp) (by simp) (by simp)

theorem RefersOnly.isNamedIn_iff (h : RefersOnly pages cs paths) (k : Kind) :
    k.IsNamedIn (pages.resolve cs) ↔ ∃ path ∈ paths, k.IsNamedIn path.toList := by
  refine h.infix_resolve_iff List.mem_cons_self ?_ ?_ <;> cases k <;> decide

end Pages

namespace Pattern

variable {p : Pattern} {rule : String} {setting : CategorySetting}

theorem hasWildcard_iff : p.hasWildcard = true ↔ ':' ∈ p.source.toList := by
  have hnone : p.source.toList.dropWhile (· != ':') = [] ↔ ':' ∉ p.source.toList := by
    rw [List.dropWhile_eq_nil_iff]
    simp only [bne_iff_ne]
    exact ⟨fun h hmem => h _ hmem rfl, fun h c hc hcolon => h (hcolon ▸ hc)⟩
  rw [hasWildcard, wildcardOffset?, List.span_eq_takeWhile_dropWhile]
  cases hbehind : p.source.toList.dropWhile (· != ':') with
  | nil => simp [hnone.1 hbehind]
  | cons c behind =>
    have hmem : ':' ∈ p.source.toList := by
      by_contra hcolon
      rw [hnone.2 hcolon] at hbehind
      cases hbehind
    simp [hmem]

/-- A pattern that is not taken to have a wildcard, and none of whose captures has a kind. -/
structure IsFixed (p : Pattern) : Prop where
  hasWildcard : p.hasWildcard = false
  untyped : p.Untyped

/-- If every colon of a rule belongs to a reference, the pattern has no wildcard just where no path
has a colon, and no kind where no path has a name of one. -/
theorem compile_pages (hrule : pages.RefersOnly rule.toList paths)
    (hcompile : compile rule pages setting = .ok p) :
    (p.IsFixed ↔ ∀ path ∈ paths, ':' ∉ path.toList) ∧
      ((∀ path ∈ paths, ∀ k : Kind, ¬ k.IsNamedIn path.toList) → p.Untyped) := by
  have hsource := source_of_compile hcompile
  have hwildcard : p.hasWildcard = true ↔ ∃ path ∈ paths, ':' ∈ path.toList := by
    rw [hasWildcard_iff, hsource, hrule.trimEnd.colon_mem_iff]
  have huntyped : (∀ path ∈ paths, ∀ k : Kind, ¬ k.IsNamedIn path.toList) → p.Untyped := by
    intro hunnamed
    refine untyped_of_unnamed hcompile fun k hk => ?_
    rw [hsource, hrule.trimEnd.isNamedIn_iff] at hk
    obtain ⟨path, hpath, hk⟩ := hk
    exact hunnamed path hpath k hk
  refine ⟨⟨fun hfixed path hpath hmem => ?_, fun hcolon => ⟨?_, ?_⟩⟩, huntyped⟩
  · have htrue := hwildcard.2 ⟨path, hpath, hmem⟩
    rw [hfixed.hasWildcard] at htrue
    cases htrue
  · rw [← Bool.not_eq_true, hwildcard]
    rintro ⟨path, hpath, hmem⟩
    exact hcolon path hpath hmem
  · exact huntyped fun path hpath k hk => hcolon path hpath hk.colon_mem

theorem compile_pages_team :
    let pages := Pages.ofList [(3, "/about"), (4, "/our team/")]
    pages.RefersOnly "/(:page:3)/x/:page:4/".toList ["/about", "/our team/"] ∧
      ∃ p, compile "/(:page:3)/x/:page:4/" pages {} = .ok p ∧ p.IsFixed := by
  intro pages
  have hlast : pages.RefersOnly (")/x/".toList ++ (":page:".toList ++ ['4'] ++ ['/']))
      ["/our team/"] :=
    .reference (by decide) rfl (by decide) (by simp) (.nothing (by decide))
  have hrule : pages.RefersOnly ("/(".toList ++ (":page:".toList ++ ['3'] ++
      (")/x/".toList ++ (":page:".toList ++ ['4'] ++ ['/'])))) ["/about", "/our team/"] :=
    .reference (by decide) rfl (by decide) (by simp) hlast
  have hsome : (compile "/(:page:3)/x/:page:4/" pages {}).toOption.isSome = true := by
    decide +kernel
  obtain ⟨p, hp⟩ := Option.isSome_iff_exists.1 hsome
  have hcompile := ok_of_toOption hp
  exact ⟨hrule, p, hcompile, (compile_pages hrule hcompile).1.2 (by decide)⟩

/-- A colon in the path of a page begins a wildcard if the name of a kind is behind it. -/
theorem pages_name_kind :
    let pages := Pages.ofList [(3, "/talk:any")]
    pages.RefersOnly ":page:3".toList ["/talk:any"] ∧
      (compile ":page:3" pages {}).toOption.map (fun p => (p.hasWildcard, p.kind? 2)) =
        some (true, some .any) := by
  intro pages
  have hrule : pages.RefersOnly ([] ++ (":page:".toList ++ ['3'] ++ [])) ["/talk:any"] :=
    .reference (by decide) rfl (by decide) (by simp) (.nothing (by decide))
  exact ⟨hrule, by decide +kernel⟩

end Pattern

end Signpost
