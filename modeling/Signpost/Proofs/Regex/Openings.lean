import Signpost.Proofs.Regex.Groups
import Signpost.Proofs.Regex.Lexing

/-!
# Where groups open

Groups are numbered as they open, so the place of a group in the text is told by the lexemes that
open one.
-/

namespace Signpost.Regex

/-- Whether a lexeme opens a group that captures. -/
def Lexeme.opens : Lexeme → Bool
  | .openCapture _ => true
  | _ => false

/-- The places where groups that capture open, after some characters to pass over. -/
def openings : (skip place : Nat) → List Char → List Nat
  | _, _, [] => []
  | n + 1, place, _ :: cs => openings n (place + 1) cs
  | 0, place, c :: cs =>
    match readLexeme c cs with
    | .error _ => []
    | .ok (l, rest) =>
      let later := openings (cs.length - rest.length) (place + 1) cs
      if l.opens then place :: later else later

theorem getElem?_iff_countP {places : List Nat} (h : places.Pairwise (· < ·)) {i o : Nat} :
    places[i]? = some o ↔ o ∈ places ∧ (places.countP fun o' => o' < o) = i := by
  induction places generalizing i with
  | nil => simp
  | cons place places ih =>
    obtain ⟨hfirst, hrest⟩ := List.pairwise_cons.1 h
    have hself : (places.countP fun o' => o' < place) = 0 :=
      List.countP_eq_zero.2 fun o' ho' => by simpa using Nat.le_of_lt (hfirst o' ho')
    have hlater : ∀ o ∈ places, ((place :: places).countP fun o' => o' < o) =
        (places.countP fun o' => o' < o) + 1 := fun o ho =>
      List.countP_cons_of_pos (by simpa using hfirst o ho)
    cases i with
    | zero =>
      rw [List.getElem?_cons_zero, Option.some.injEq]
      constructor
      · rintro rfl
        simpa using hself
      · rintro ⟨ho, hcount⟩
        refine ((List.mem_cons.1 ho).resolve_right fun ho => ?_).symm
        rw [hlater o ho] at hcount
        cases hcount
    | succ i =>
      rw [List.getElem?_cons_succ, ih hrest]
      constructor
      · rintro ⟨ho, rfl⟩
        exact ⟨List.mem_cons_of_mem _ ho, hlater o ho⟩
      · rintro ⟨ho, hcount⟩
        rcases List.mem_cons.1 ho with rfl | ho
        · simp [hself] at hcount
        · rw [hlater o ho] at hcount
          exact ⟨ho, Nat.succ.inj hcount⟩

variable {cs : List Char} {ls : List Lexeme} {r r' : Reading}

theorem place_le_openings (n place : Nat) (cs : List Char) :
    ∀ o ∈ openings n place cs, place ≤ o := by
  induction cs generalizing n place with
  | nil => simp [openings]
  | cons c cs ih =>
    intro o ho
    cases n with
    | succ n => exact Nat.le_of_succ_le (ih n (place + 1) o ho)
    | zero =>
      rw [openings] at ho
      split at ho
      · cases ho
      · next l rest hread =>
        have hlater := ih (cs.length - rest.length) (place + 1) o
        split at ho
        · rcases List.mem_cons.1 ho with rfl | ho
          · exact Nat.le_refl _
          · exact Nat.le_of_succ_le (hlater ho)
        · exact Nat.le_of_succ_le (hlater ho)

theorem openings_increasing (n place : Nat) (cs : List Char) :
    (openings n place cs).Pairwise (· < ·) := by
  induction cs generalizing n place with
  | nil => simp [openings]
  | cons c cs ih =>
    cases n with
    | succ n => exact ih n (place + 1)
    | zero =>
      rw [openings]
      split
      · exact .nil
      · next l rest hread =>
        have hlater := ih (cs.length - rest.length) (place + 1)
        dsimp only
        split
        · exact .cons (place_le_openings _ _ _) hlater
        · exact hlater

theorem openings_skip (t rest : List Char) (place : Nat) :
    openings t.length place (t ++ rest) = openings 0 (place + t.length) rest := by
  induction t generalizing place with
  | nil => rfl
  | cons d t ih =>
    rw [List.length_cons, List.cons_append, openings, ih, Nat.add_assoc, Nat.add_comm 1]

theorem length_openings {n : Nat} (place : Nat) (h : lexemes n cs = .ok ls) :
    (openings n place cs).length = ls.countP Lexeme.opens := by
  induction cs generalizing n place ls with
  | nil =>
    cases h
    rfl
  | cons c cs ih =>
    cases n with
    | succ n => exact ih (place + 1) h
    | zero =>
      obtain ⟨⟨l, rest⟩, hread, h⟩ := bind_eq_ok.1 h
      obtain ⟨ls, hrest, heq⟩ := bind_eq_ok.1 h
      cases heq
      have hlater := ih (place + 1) hrest
      rw [openings, hread]
      dsimp only
      split <;> simp_all

theorem count_step {l : Lexeme} (h : r.step l = .ok r') :
    r'.count = r.count + if l.opens then 1 else 0 := by
  cases l with
  | times least most greedy =>
    rw [Reading.step] at h
    split at h <;> cases h
    rfl
  | openCapture name =>
    cases name with
    | none =>
      cases h
      rfl
    | some name =>
      rw [Reading.step] at h
      split at h <;> cases h
      rfl
  | close =>
    rw [Reading.step] at h
    split at h <;> cases h
    rfl
  | _ =>
    cases h
    rfl

theorem count_foldlM (h : ls.foldlM Reading.step r = .ok r') :
    r'.count = r.count + ls.countP Lexeme.opens := by
  induction ls generalizing r with
  | nil =>
    cases h
    rfl
  | cons l ls ih =>
    rw [List.foldlM_cons] at h
    obtain ⟨s, hs, h⟩ := bind_eq_ok.1 h
    rw [ih h, count_step hs, List.countP_cons]
    omega

theorem groupCount_eq_openings {e : Expr} (h : Expr.read cs = .ok e) (hls : lexemes 0 cs = .ok ls)
    (hkept : ∀ l ∈ ls, l.drops = false) : e.groupCount = (openings 0 0 cs).length := by
  obtain ⟨ls', r, hls', hr, hgroups, hall⟩ := groups_of_read h
  rw [hls] at hls'
  obtain rfl := Except.ok.inj hls'
  have hcount : r.count = (openings 0 0 cs).length := by
    rw [length_openings 0 hls, count_foldlM hr]
    exact Nat.zero_add _
  rw [← hcount]
  exact Expr.groupCount_eq fun m => ⟨hgroups m, hall hkept m⟩

end Signpost.Regex
