import Signpost.Proofs.Regex.Anchors
import Signpost.Proofs.Regex.Doubling
import Signpost.Proofs.Regex.Words

/-!
# Words that an expression accepts

Whether a path is matched does not depend on what is marked in it. So it is enough to know which
words an expression takes, and between anchors these are the texts that it matches.
-/

namespace Signpost.Regex

variable {e a b : Expr} {es : List Expr} {p q : List Char → Prop} {n : Nat}

/-- The expression takes the words with a property, whatever it marks. -/
def Accepts (e : Expr) (p : List Char → Prop) : Prop :=
  ∀ text i j, e.Spans text i j ↔ ∃ w, p w ∧ Lies text i j w

theorem Spells.accepts (h : Spells e p) : Accepts e p := by
  intro text i j
  constructor
  · rintro ⟨m, hm⟩
    exact (h.iff.1 hm).2
  · intro hw
    exact ⟨[], h.iff.2 ⟨rfl, hw⟩⟩

namespace Accepts

theorem congr (h : Accepts e p) (hpq : ∀ w, p w ↔ q w) : Accepts e q := by
  intro text i j
  simp only [h text i j, hpq]

theorem group (h : Accepts e p) : Accepts (.group n e) p := by
  intro text i j
  rw [spans_group]
  exact h text i j

theorem append {text : List Char} {i j : Nat} (ha : Accepts a p) (hb : Accepts b q) :
    (∃ k, a.Spans text i k ∧ b.Spans text k j) ↔
      ∃ w, (∃ u v, p u ∧ q v ∧ w = u ++ v) ∧ Lies text i j w := by
  constructor
  · rintro ⟨k, hak, hkb⟩
    obtain ⟨u, hu, hik⟩ := (ha text i k).1 hak
    obtain ⟨v, hv, hkj⟩ := (hb text k j).1 hkb
    exact ⟨u ++ v, ⟨u, v, hu, hv, rfl⟩, lies_append.2 ⟨k, hik, hkj⟩⟩
  · rintro ⟨_, ⟨u, v, hu, hv, rfl⟩, hlies⟩
    obtain ⟨k, hik, hkj⟩ := lies_append.1 hlies
    exact ⟨k, (ha text i k).2 ⟨u, hu, hik⟩, (hb text k j).2 ⟨v, hv, hkj⟩⟩

theorem cat (ha : Accepts a p) (hb : Accepts b q) :
    Accepts (.cat a b) fun w => ∃ u v, p u ∧ q v ∧ w = u ++ v := by
  intro text i j
  rw [spans_cat]
  exact ha.append hb

theorem alt (ha : Accepts a p) (hb : Accepts b q) : Accepts (.alt a b) fun w => p w ∨ q w := by
  intro text i j
  simp only [spans_alt, ha text i j, hb text i j, or_and_right, exists_or]

/-! ### Sequences -/

theorem seq_nil : Accepts (.seq []) (· = []) := spells_empty.accepts

theorem seq_cons (h : Accepts e p) (hs : Accepts (.seq es) q) :
    Accepts (.seq (e :: es)) fun w => ∃ u v, p u ∧ q v ∧ w = u ++ v := by
  intro text i j
  rw [← h.append hs]
  constructor
  · rintro ⟨m, hm⟩
    obtain ⟨k, ma, mb, he, hes, -⟩ := takes_seq.1 hm
    exact ⟨k, ⟨ma, he⟩, mb, takes_seq.2 hes⟩
  · rintro ⟨k, ⟨ma, he⟩, mb, hes⟩
    exact ⟨_, takes_seq.2 ⟨k, ma, mb, he, takes_seq.1 hes, rfl⟩⟩

theorem seq_letters (cs : List Char) (h : Accepts (.seq es) q) :
    Accepts (.seq ((cs.map fun c => .char (.single c)) ++ es)) fun w =>
      ∃ v, q v ∧ w = cs ++ v := by
  induction cs with
  | nil => exact h.congr fun w => by simp
  | cons c cs ih =>
    refine ((spells_letter c).accepts.seq_cons ih).congr fun w => ?_
    constructor
    · rintro ⟨_, _, rfl, ⟨v, hv, rfl⟩, rfl⟩
      exact ⟨v, hv, rfl⟩
    · rintro ⟨v, hv, rfl⟩
      exact ⟨[c], cs ++ v, rfl, ⟨v, hv, rfl⟩, rfl⟩

theorem letters_append (cs : List Char) (he : e.IsPart) (h : Accepts e p) :
    Accepts (.ofItems ((cs.map fun c => .char (.single c)) ++ [e])) fun w =>
      ∃ v, p v ∧ w = cs ++ v := by
  have hparts : ∀ f ∈ (cs.map fun c => .char (.single c)) ++ [e], f.IsPart := by
    rw [List.forall_mem_append, List.forall_mem_singleton, List.forall_mem_map]
    exact ⟨fun c _ => Expr.isPart_char _, he⟩
  rw [← Expr.seq_of_isPart hparts]
  have hlast : Accepts (.seq [e]) p := (h.seq_cons seq_nil).congr fun w => by simp
  exact hlast.seq_letters cs

end Accepts

/-! ## Between anchors -/

/-- Between anchors an expression matches the words that it accepts. -/
theorem isMatch_anchored {r : Regex} (hr : r.expr = e.anchored) (h : Accepts e p)
    (path : String) : r.isMatch path = true ↔ p path.toList := by
  have hwhole : e.Spans path.toList 0 path.toList.length ↔ p path.toList := by
    rw [h]
    simp only [lies_whole, exists_eq_right]
  rw [isMatch_iff, ← hwhole, hr]
  constructor
  · rintro ⟨i, j, marks, hi, hm⟩
    obtain ⟨m, hinside, -⟩ := takes_group.1 hm
    exact ⟨m, ((takes_anchored hi).1 hinside).2.2⟩
  · rintro ⟨m, hm⟩
    have hinside := (takes_anchored (Nat.zero_le _)).2 ⟨rfl, rfl, hm⟩
    exact ⟨0, _, _, Nat.zero_le _, takes_group.2 ⟨m, hinside, rfl⟩⟩

end Signpost.Regex
