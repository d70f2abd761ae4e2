import Mathlib.Data.List.Basic
import Mathlib.Data.List.Infix
import Signpost.Proofs.Rule.Alignment

/-!
# Rules that name no kind

A wildcard is a colon and the name of a kind behind it. A text without one stays as it is when it
is expanded, and a rule that comes to such a text has no captures with a kind.
-/

namespace Signpost

variable {cs rest before w x y : List Char} {c : Char} {k : Kind}

/-! ## Names of kinds in a text -/

/-- The name of the kind stands in the text, behind a colon. -/
def Kind.IsNamedIn (k : Kind) (cs : List Char) : Prop := ':' :: k.name.toList <:+: cs

theorem Kind.IsNamedIn.colon_mem (h : k.IsNamedIn cs) : ':' ∈ cs := h.subset List.mem_cons_self

theorem Kind.isNamedIn_append_colon (hbefore : ':' ∉ before) (hrest : ':' ∉ rest) :
    k.IsNamedIn (before ++ ':' :: rest) ↔ k.name.toList <+: rest := by
  constructor
  · rintro ⟨s, t, hst⟩
    rw [List.append_assoc, List.cons_append, eq_comm,
      List.append_cons_inj_of_notMem hbefore hrest] at hst
    exact ⟨t, hst.2.2.symm⟩
  · intro h
    exact ((List.prefix_cons_inj ':').2 h).isInfix.trans (List.suffix_append before _).isInfix

/-! ## Pieces -/

namespace Piece

variable {p : Piece} {setting : CategorySetting}

theorem infix_of_mem_cut (h : p ∈ cut cs) : p.source <:+: cs := by
  obtain ⟨before, behind, hcut⟩ := List.append_of_mem h
  have hsource : (cut cs).flatMap source = cs := flatMap_source_cutFrom 0 cs
  rw [hcut, List.flatMap_append, List.flatMap_cons, ← List.append_assoc] at hsource
  exact ⟨_, _, hsource⟩

theorem isNamedIn_of_mem_cut {slash : Bool} (h : wildcard slash k ∈ cut cs) : k.IsNamedIn cs := by
  refine List.IsInfix.trans ?_ (infix_of_mem_cut h)
  cases slash with
  | false => exact List.infix_refl _
  | true => exact (List.suffix_cons '/' _).isInfix

theorem expandRule_of_unnamed (setting : CategorySetting) (h : ∀ k : Kind, ¬ k.IsNamedIn cs) :
    (expandRule setting cs).1 = cs ∧ ∀ kind ∈ (cut cs).flatMap kinds, kind = none := by
  have hpiece : ∀ p ∈ cut cs, p.expansion setting = p.source ∧ ∀ kind ∈ p.kinds, kind = none := by
    intro p hp
    cases p with
    | wildcard slash kind => exact absurd (isNamedIn_of_mem_cut hp) (h kind)
    | paren captures => cases captures <;> exact ⟨rfl, by simp [kinds]⟩
    | _ => exact ⟨rfl, by simp [kinds]⟩
  constructor
  · have hsource : (cut cs).flatMap source = cs := flatMap_source_cutFrom 0 cs
    refine Eq.trans ?_ hsource
    exact List.flatMap_congr fun p hp => (hpiece p hp).1
  · intro kind hkind
    obtain ⟨p, hp, hkind⟩ := List.mem_flatMap.1 hkind
    exact (hpiece p hp).2 kind hkind

end Piece

/-! ## Patterns -/

namespace Pattern

variable {p : Pattern} {rule : String} {pages : Pages} {setting : CategorySetting}

/-- No capture has a kind. -/
structure Untyped (p : Pattern) : Prop where
  kindSet : p.kindSet = .empty
  kind? : ∀ n, p.kind? n = none

theorem untyped_of_kinds (h : ∀ kind ∈ p.kinds, kind = none) : p.Untyped := by
  constructor
  · have hnone : p.kinds.filterMap id = [] := List.filterMap_eq_nil_iff.2 h
    rw [Pattern.kindSet, hnone]
    rfl
  · intro n
    rw [Pattern.kind?]
    split
    · rfl
    · cases hkind : p.kinds[n - 1]? with
      | none => rfl
      | some kind => rw [h kind (List.mem_of_getElem? hkind)]; rfl

theorem untyped_of_unnamed (hcompile : compile rule pages setting = .ok p)
    (h : ∀ k : Kind, ¬ k.IsNamedIn p.source.toList) : p.Untyped := by
  refine untyped_of_kinds ?_
  rw [kinds_of_compile hcompile]
  exact (Piece.expandRule_of_unnamed setting h).2

end Pattern

end Signpost
