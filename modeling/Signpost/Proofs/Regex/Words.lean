import Signpost.Proofs.Regex.Run

/-!
# Words that an expression takes

An expression without conditions and groups takes words wherever they stand, and leaves no marks.
-/

namespace Signpost.Regex

variable {text w v : List Char} {i j k n : Nat} {m : List Mark} {e a b : Expr} {c : Char}
  {s : CharSet}

/-! ## What lies between two places -/

/-- A word lies between two places of a text. -/
def Lies (text : List Char) (i j : Nat) (w : List Char) : Prop :=
  text.drop i = w ++ text.drop j ∧ j = i + w.length

theorem lies_nil : Lies text i j [] ↔ j = i := by
  constructor
  · rintro ⟨-, rfl⟩
    rfl
  · rintro rfl
    exact ⟨rfl, rfl⟩

theorem lies_singleton : Lies text i j [c] ↔ text[i]? = some c ∧ j = i + 1 := by
  constructor
  · rintro ⟨h, rfl⟩
    refine ⟨?_, rfl⟩
    rw [← Nat.add_zero i, ← List.getElem?_drop, h]
    rfl
  · rintro ⟨h, rfl⟩
    obtain ⟨hi, rfl⟩ := List.getElem?_eq_some_iff.1 h
    exact ⟨List.drop_eq_getElem_cons hi, rfl⟩

theorem lies_append :
    Lies text i j (w ++ v) ↔ ∃ k, Lies text i k w ∧ Lies text k j v := by
  constructor
  · rintro ⟨h, rfl⟩
    have hdrop : text.drop (i + w.length) = v ++ text.drop (i + (w ++ v).length) := by
      rw [← List.drop_drop, h, List.append_assoc, List.drop_left]
    refine ⟨i + w.length, ⟨?_, rfl⟩, hdrop, by simp [Nat.add_assoc]⟩
    rw [h, hdrop, List.append_assoc]
  · rintro ⟨k, ⟨h, rfl⟩, h', rfl⟩
    exact ⟨by rw [h, h', List.append_assoc], by simp [Nat.add_assoc]⟩

theorem Lies.eq_take (h : Lies text i j w) : (text.drop i).take (j - i) = w := by
  obtain ⟨h, rfl⟩ := h
  rw [h, Nat.add_sub_cancel_left, List.take_left]

theorem lies_whole : Lies text 0 text.length w ↔ w = text := by
  constructor
  · intro h
    rw [← h.eq_take]
    simp
  · rintro rfl
    exact ⟨by simp, by simp⟩

/-! ## Languages -/

/-- The expression takes the words with a property, and marks nothing. -/
def Spells (e : Expr) (p : List Char → Prop) : Prop :=
  ∀ text i j m, Takes text e i j m ↔ m = [] ∧ ∃ w, p w ∧ Lies text i j w

theorem Spells.iff {p : List Char → Prop} (h : Spells e p) :
    Takes text e i j m ↔ m = [] ∧ ∃ w, p w ∧ Lies text i j w := h text i j m

theorem spells_empty : Spells .empty (· = []) := by
  intro text i j m
  simp only [takes_empty, exists_eq_left, lies_nil, and_comm]

theorem spells_char : Spells (.char s) fun w => ∃ c, s.contains c ∧ w = [c] := by
  intro text i j m
  rw [takes_char]
  constructor
  · rintro ⟨c, hc, hs, rfl, rfl⟩
    exact ⟨rfl, [c], ⟨c, hs, rfl⟩, lies_singleton.2 ⟨hc, rfl⟩⟩
  · rintro ⟨rfl, _, ⟨c, hs, rfl⟩, h⟩
    obtain ⟨hc, rfl⟩ := lies_singleton.1 h
    exact ⟨c, hc, hs, rfl, rfl⟩

theorem Spells.cat {p q : List Char → Prop} (ha : Spells a p) (hb : Spells b q) :
    Spells (.cat a b) fun w => ∃ u v, p u ∧ q v ∧ w = u ++ v := by
  intro text i j m
  simp only [takes_cat, ha.iff, hb.iff]
  constructor
  · rintro ⟨k, _, _, ⟨rfl, u, hu, hiu⟩, ⟨rfl, v, hv, hkv⟩, rfl⟩
    exact ⟨rfl, u ++ v, ⟨u, v, hu, hv, rfl⟩, lies_append.2 ⟨k, hiu, hkv⟩⟩
  · rintro ⟨rfl, _, ⟨u, v, hu, hv, rfl⟩, h⟩
    obtain ⟨k, hiu, hkv⟩ := lies_append.1 h
    exact ⟨k, [], [], ⟨rfl, u, hu, hiu⟩, ⟨rfl, v, hv, hkv⟩, rfl⟩

theorem copies_char : Copies text (.char s) n i j m ↔
    m = [] ∧ ∃ w, (w.length = n ∧ ∀ c ∈ w, s.contains c = true) ∧ Lies text i j w := by
  induction n generalizing i m with
  | zero =>
    simp only [Copies, List.length_eq_zero_iff]
    constructor
    · rintro ⟨rfl, rfl⟩
      exact ⟨rfl, [], ⟨rfl, by simp⟩, lies_nil.2 rfl⟩
    · rintro ⟨rfl, w, ⟨rfl, -⟩, h⟩
      exact ⟨lies_nil.1 h, rfl⟩
  | succ n ih =>
    simp only [Copies, spells_char.iff, ih]
    constructor
    · rintro ⟨k, _, _, ⟨rfl, _, ⟨c, hc, rfl⟩, hik⟩, ⟨rfl, w, ⟨rfl, hw⟩, hkj⟩, rfl⟩
      exact ⟨rfl, c :: w, ⟨rfl, List.forall_mem_cons.2 ⟨hc, hw⟩⟩, lies_append.2 ⟨k, hik, hkj⟩⟩
    · rintro ⟨rfl, _ | ⟨c, w⟩, ⟨hlength, hw⟩, h⟩
      · cases hlength
      obtain ⟨k, hik, hkj⟩ := (lies_append (w := [c])).1 h
      obtain ⟨hc, hw⟩ := List.forall_mem_cons.1 hw
      exact ⟨k, [], [], ⟨rfl, [c], ⟨c, hc, rfl⟩, hik⟩,
        ⟨rfl, w, ⟨Nat.succ.inj hlength, hw⟩, hkj⟩, rfl⟩

theorem spells_anyNumber {greedy : Bool} :
    Spells (.times 0 none greedy (.char s)) fun w => ∀ c ∈ w, s.contains c = true := by
  intro text i j m
  simp only [takes_anyNumber, copies_char]
  constructor
  · rintro ⟨n, rfl, w, ⟨-, hw⟩, h⟩
    exact ⟨rfl, w, hw, h⟩
  · rintro ⟨rfl, w, hw, h⟩
    exact ⟨w.length, rfl, w, ⟨rfl, hw⟩, h⟩

theorem spells_many {greedy : Bool} :
    Spells (.times 1 none greedy (.char s)) fun w => w ≠ [] ∧ ∀ c ∈ w, s.contains c = true := by
  intro text i j m
  simp only [takes_atLeast, copies_char]
  constructor
  · rintro ⟨n, hn, rfl, w, ⟨rfl, hw⟩, h⟩
    exact ⟨rfl, w, ⟨List.length_pos_iff.1 hn, hw⟩, h⟩
  · rintro ⟨rfl, w, ⟨hne, hw⟩, h⟩
    exact ⟨w.length, List.length_pos_iff.2 hne, rfl, w, ⟨rfl, hw⟩, h⟩

theorem spells_exactly {greedy : Bool} :
    Spells (.times n (some n) greedy (.char s)) fun w =>
      w.length = n ∧ ∀ c ∈ w, s.contains c = true := by
  intro text i j m
  rw [takes_exactly, copies_char]

theorem Spells.congr {p q : List Char → Prop} (h : Spells e p) (hpq : ∀ w, p w ↔ q w) :
    Spells e q := by
  intro text i j m
  simp only [h.iff, hpq]

theorem Spells.optional {greedy : Bool} {p : List Char → Prop} (h : Spells e p) :
    Spells (.times 0 (some 1) greedy e) fun w => w = [] ∨ p w := by
  intro text i j m
  have hone : Copies text e 1 i j m ↔ Takes text e i j m := by
    constructor
    · rintro ⟨k, ma, _, hcopy, ⟨rfl, rfl⟩, rfl⟩
      simpa using hcopy
    · intro hcopy
      exact ⟨j, m, [], hcopy, ⟨rfl, rfl⟩, by simp⟩
  rw [takes_atMost]
  constructor
  · rintro ⟨_ | _ | n, hn, hcopies⟩
    · obtain ⟨rfl, rfl⟩ := hcopies
      exact ⟨rfl, [], .inl rfl, lies_nil.2 rfl⟩
    · obtain ⟨rfl, w, hw, hlies⟩ := h.iff.1 (hone.1 hcopies)
      exact ⟨rfl, w, .inr hw, hlies⟩
    · omega
  · rintro ⟨rfl, w, rfl | hw, hlies⟩
    · exact ⟨0, Nat.zero_le _, lies_nil.1 hlies, rfl⟩
    · exact ⟨1, Nat.le_refl _, hone.2 (h.iff.2 ⟨rfl, w, hw, hlies⟩)⟩

theorem spells_letter (c : Char) : Spells (.char (.single c)) (· = [c]) :=
  spells_char.congr fun w => by simp

theorem spells_letters (cs : List Char) :
    Spells (.ofItems (cs.map fun c => .char (.single c))) (· = cs) := by
  induction cs with
  | nil => exact spells_empty
  | cons c cs ih =>
    cases cs with
    | nil => exact spells_letter c
    | cons d cs => exact ((spells_letter c).cat ih).congr fun w => by simp

end Signpost.Regex
