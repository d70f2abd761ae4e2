import Mathlib.Algebra.Order.Field.Power
import Mathlib.Data.Rat.Cast.Order
import Mathlib.Tactic.Ring
import Mathlib.Tactic.NormNum
import Signpost.Proofs.Number.Binary64

/-!
# Natural numbers in double precision

A natural number is read as the multiple next to it of the step between double precision numbers of
its size, and as an infinity if that multiple is too large. So two natural numbers are read as the
same if their multiples are the same, which cannot be where one of them is below `2 ^ 53`.
-/

namespace Signpost.Binary64

variable {m n k l : Nat} {x y : Binary64}

/-! ## The nearest multiple -/

theorem roundDiv_cases (num den : Nat) :
    (roundDiv num den = num / den ∧ 2 * (num % den) ≤ den) ∨
      (roundDiv num den = num / den + 1 ∧ den ≤ 2 * (num % den)) := by
  unfold roundDiv
  dsimp only
  split
  · next h => exact .inr ⟨rfl, by omega⟩
  · next h => exact .inl ⟨rfl, by omega⟩

theorem div_le_roundDiv (num den : Nat) : num / den ≤ roundDiv num den := by
  rcases roundDiv_cases num den with ⟨h, -⟩ | ⟨h, -⟩ <;> omega

theorem roundDiv_le (num den : Nat) : roundDiv num den ≤ num / den + 1 := by
  rcases roundDiv_cases num den with ⟨h, -⟩ | ⟨h, -⟩ <;> omega

/-- The step from one double precision number of the size of `n` to the next, or one where it is
smaller. -/
def gap (n : Nat) : Nat := 2 ^ (n.log2 - 52)

/-- The multiple of its gap next to a number, of two the even one. -/
def rounded (n : Nat) : Nat := roundDiv n (gap n) * gap n

theorem gap_pos (n : Nat) : 0 < gap n := Nat.pow_pos (by decide)

theorem log2_le_of_lt (h : n < 2 ^ 53) : n.log2 ≤ 52 := by
  by_cases hn : n = 0
  · simp [hn]
  · exact Nat.lt_succ_iff.1 ((Nat.log2_lt hn).2 h)

theorem rounded_of_log2_le (h : n.log2 ≤ 52) : rounded n = n := by
  have hgap : gap n = 1 := by rw [gap, Nat.sub_eq_zero_of_le h, Nat.pow_zero]
  have hround := roundDiv_mul n Nat.one_pos
  rw [Nat.mul_one] at hround
  rw [rounded, hgap, hround, Nat.mul_one]

theorem rounded_of_lt (h : n < 2 ^ 53) : rounded n = n := rounded_of_log2_le (log2_le_of_lt h)

theorem two_pow_eq_mul_gap (h : 52 ≤ n.log2) : 2 ^ n.log2 = 2 ^ 52 * gap n := by
  rw [gap, ← Nat.pow_add]
  congr 1
  omega

theorem two_pow_le_roundDiv (h : 52 ≤ n.log2) : 2 ^ 52 ≤ roundDiv n (gap n) := by
  have hn : n ≠ 0 := by rintro rfl; simp at h
  refine le_trans ?_ (div_le_roundDiv n (gap n))
  rw [Nat.le_div_iff_mul_le (gap_pos n), ← two_pow_eq_mul_gap h]
  exact Nat.log2_self_le hn

theorem lt_mul_gap (n : Nat) : n < 2 ^ 53 * gap n := by
  rw [gap, ← Nat.pow_add]
  exact Nat.lt_log2_self.trans_le (Nat.pow_le_pow_right (by decide) (by omega))

theorem roundDiv_le_two_pow (n : Nat) : roundDiv n (gap n) ≤ 2 ^ 53 :=
  (roundDiv_le n (gap n)).trans
    (Nat.succ_le_of_lt ((Nat.div_lt_iff_lt_mul (gap_pos n)).2 (lt_mul_gap n)))

theorem le_rounded_of_le (h : 2 ^ 53 ≤ n) : 2 ^ 53 ≤ rounded n := by
  have hn : n ≠ 0 := by rintro rfl; simp at h
  have hlog : 53 ≤ n.log2 := (Nat.le_log2 hn).2 h
  calc 2 ^ 53
    _ ≤ 2 ^ n.log2 := Nat.pow_le_pow_right (by decide) hlog
    _ = 2 ^ 52 * gap n := two_pow_eq_mul_gap (by omega)
    _ ≤ rounded n := Nat.mul_le_mul_right _ (two_pow_le_roundDiv (by omega))

/-- Rounding takes a number no further than half of its gap. -/
theorem near_rounded (n : Nat) :
    2 * n ≤ 2 * rounded n + gap n ∧ 2 * rounded n ≤ 2 * n + gap n := by
  have hdiv := Nat.div_add_mod n (gap n)
  have hpos := gap_pos n
  have hlt := Nat.mod_lt n hpos
  rw [rounded]
  rcases roundDiv_cases n (gap n) with ⟨h, hr⟩ | ⟨h, hr⟩
  · rw [h, Nat.mul_comm (n / gap n)]
    omega
  · rw [h, Nat.add_mul, Nat.one_mul, Nat.mul_comm (n / gap n)]
    omega

/-! ## Comparing whole numbers -/

/-- A double precision number that is a natural number. -/
def Whole (x : Binary64) (k : Nat) : Prop :=
  ∃ significand exponent, x = finite false significand exponent ∧
    (significand : ℚ) * 2 ^ exponent = k

theorem shiftLeft_eq_iff (m n : Nat) (d e : Int) :
    m <<< (d - e).toNat = n <<< (e - d).toNat ↔ (m : ℚ) * 2 ^ d = n * 2 ^ e := by
  have hshift : ∀ (i : Nat) (a b : Int), ((i <<< (a - b).toNat : Nat) : ℚ) * 2 ^ min a b = i * 2 ^ a := by
    intro i a b
    have hexp : ((a - b).toNat : Int) + min a b = a := by omega
    rw [Nat.shiftLeft_eq, Nat.cast_mul, Nat.cast_pow, Nat.cast_ofNat, mul_assoc, ← zpow_natCast,
      ← zpow_add₀ two_ne_zero, hexp]
  rw [← hshift m d e, ← hshift n e d, min_comm e d, mul_left_inj' (zpow_ne_zero _ two_ne_zero),
    Nat.cast_inj]

theorem compare?_whole (hx : Whole x k) (hy : Whole y l) : x.compare? y = some .eq ↔ k = l := by
  obtain ⟨m, d, rfl, hm⟩ := hx
  obtain ⟨n, e, rfl, hn⟩ := hy
  have hsigned : ∀ i : Nat, signed false i = (i : Int) := fun i => rfl
  rw [compare?, Option.some_inj, Std.compare_eq_iff_eq, hsigned, hsigned, Int.natCast_inj,
    shiftLeft_eq_iff, hm, hn, Nat.cast_inj]

theorem compare?_infinite_whole (hx : Whole x k) :
    x.compare? (infinite false) ≠ some .eq ∧ (infinite false).compare? x ≠ some .eq := by
  obtain ⟨m, d, rfl, -⟩ := hx
  exact ⟨nofun, nofun⟩

/-! ## Reading natural numbers -/

theorem scaled_one (n : Nat) :
    scaled n 1 ((n.log2 : Int) - 52) = (n * 2 ^ (52 - n.log2), gap n) := by
  have hup : (-((n.log2 : Int) - 52)).toNat = 52 - n.log2 := by omega
  have hdown : ((n.log2 : Int) - 52).toNat = n.log2 - 52 := by omega
  rw [scaled, hup, hdown, Nat.shiftLeft_eq, Nat.shiftLeft_eq, Nat.one_mul, gap]

theorem two_pow_le_div_gap (h : n ≠ 0) : 2 ^ 52 ≤ n * 2 ^ (52 - n.log2) / gap n := by
  rw [Nat.le_div_iff_mul_le (gap_pos n)]
  calc 2 ^ 52 * gap n
    _ = 2 ^ n.log2 * 2 ^ (52 - n.log2) := by
      rw [gap, ← Nat.pow_add, ← Nat.pow_add]
      congr 1
      omega
    _ ≤ n * 2 ^ (52 - n.log2) := Nat.mul_le_mul_right _ (Nat.log2_self_le h)

theorem exponentOf_one (h : n ≠ 0) : exponentOf n 1 = (n.log2 : Int) - 52 := by
  have hone : ((1 : Nat).log2 : Int) = 0 := by decide
  have hsize : ¬n * 2 ^ (52 - n.log2) / gap n < 1 <<< 52 := Nat.not_lt.2 (two_pow_le_div_gap h)
  rw [exponentOf, hone, Int.sub_zero, scaled_one]
  dsimp only
  rw [if_neg hsize]
  omega

theorem ofRatio_one (h : n ≠ 0) : ofRatio false n 1 =
    if 971 < (n.log2 : Int) - 52 ∨ ((n.log2 : Int) - 52 = 971 ∧
        roundDiv (n * 2 ^ (52 - n.log2)) (gap n) = 2 ^ 53) then
      infinite false
    else finite false (roundDiv (n * 2 ^ (52 - n.log2)) (gap n)) ((n.log2 : Int) - 52) := by
  rw [ofRatio, if_neg h, exponentOf_one h]
  dsimp only
  rw [scaled_one]
  rfl

/-- The numbers from here on have no place in the format. -/
def limit : Nat := 2 ^ 1024

theorem limit_eq (i j : Nat) (h : i + j = 1024) : limit = 2 ^ i * 2 ^ j :=
  (congrArg (2 ^ ·) h).symm.trans (Nat.pow_add 2 i j)

theorem limit_le_rounded_iff (n : Nat) :
    limit ≤ rounded n ↔ 1023 < n.log2 ∨ n.log2 = 1023 ∧ roundDiv n (gap n) = 2 ^ 53 := by
  rcases Nat.lt_trichotomy n.log2 1023 with hlog | hlog | hlog
  · have hgap : gap n < 2 ^ 971 := pow_lt_pow_right₀ one_lt_two (by omega)
    have hsmall : rounded n < limit := by
      rw [limit_eq 53 971 rfl]
      exact Nat.mul_lt_mul_of_le_of_lt (roundDiv_le_two_pow n) hgap (Nat.pow_pos (by decide))
    exact iff_of_false (Nat.not_le.2 hsmall) (by omega)
  · have hgap : gap n = 2 ^ 971 := by rw [gap, hlog]
    have hle := roundDiv_le_two_pow n
    rw [rounded, limit_eq 53 971 rfl, ← hgap, Nat.mul_le_mul_right_iff (gap_pos n)]
    omega
  · have hgap : 2 ^ 972 ≤ gap n := pow_le_pow_right₀ one_le_two (by omega)
    have hlarge : limit ≤ rounded n := by
      rw [limit_eq 52 972 rfl]
      exact Nat.mul_le_mul (two_pow_le_roundDiv (by omega)) hgap
    exact iff_of_true hlarge (.inl hlog)

theorem ne_zero_of_limit_le (h : limit ≤ rounded n) : n ≠ 0 := by
  rintro rfl
  have hlarge := (limit_le_rounded_iff 0).1 h
  simp at hlarge

theorem ofRatio_of_limit_le (h : limit ≤ rounded n) : ofRatio false n 1 = infinite false := by
  rw [ofRatio_one (ne_zero_of_limit_le h)]
  refine if_pos ?_
  rcases (limit_le_rounded_iff n).1 h with hlog | ⟨hlog, hround⟩
  · exact .inl (by omega)
  · refine .inr ⟨by omega, ?_⟩
    rw [hlog, Nat.sub_eq_zero_of_le (by decide), Nat.pow_zero, Nat.mul_one, hround]

theorem whole_ofRatio (h0 : n ≠ 0) (h : rounded n < limit) :
    Whole (ofRatio false n 1) (rounded n) := by
  have hlarge : ¬(1023 < n.log2 ∨ n.log2 = 1023 ∧ roundDiv n (gap n) = 2 ^ 53) := fun hlarge =>
    Nat.not_le.2 h ((limit_le_rounded_iff n).2 hlarge)
  refine ⟨_, _, (ofRatio_one h0).trans (if_neg ?_), ?_⟩
  · rintro (hlog | ⟨hlog, hround⟩)
    · exact hlarge (.inl (by omega))
    · have hexact : 52 - n.log2 = 0 := by omega
      rw [hexact, Nat.pow_zero, Nat.mul_one] at hround
      exact hlarge (.inr ⟨by omega, hround⟩)
  · rw [rounded]
    rcases Nat.le_total n.log2 52 with hlog | hlog
    · have hgap : gap n = 1 := by rw [gap, Nat.sub_eq_zero_of_le hlog, Nat.pow_zero]
      have hround : ∀ i, roundDiv i 1 = i := fun i => by simpa using roundDiv_mul i Nat.one_pos
      have hexp : ((52 - n.log2 : Nat) : Int) + ((n.log2 : Int) - 52) = 0 := by omega
      rw [hgap, hround, hround, Nat.mul_one, Nat.cast_mul, Nat.cast_pow, Nat.cast_ofNat, mul_assoc,
        ← zpow_natCast, ← zpow_add₀ two_ne_zero, hexp, zpow_zero, mul_one]
    · have hexp : (n.log2 : Int) - 52 = ((n.log2 - 52 : Nat) : Int) := by omega
      rw [Nat.sub_eq_zero_of_le hlog, Nat.pow_zero, Nat.mul_one, hexp, zpow_natCast, Nat.cast_mul,
        gap, Nat.cast_pow, Nat.cast_ofNat]

/-! ## Decimal digits -/

theorem limit_le_of_length (h : 400 < (Nat.toDigits 10 n).length) : limit ≤ rounded n := by
  have hdigits : ∀ count, 0 < count → count < (Nat.toDigits 10 n).length → 10 ^ count ≤ n := by
    intro count hpos hcount
    refine Nat.le_of_not_lt fun hlt => Nat.not_le.2 hcount ?_
    exact (Nat.length_toDigits_le_iff (by decide) hpos).2 hlt
  have hlarge : (2 ^ 3) ^ 400 ≤ n :=
    (pow_le_pow_left₀ (by decide) (by decide) 400).trans (hdigits 400 (by decide) h)
  rw [← pow_mul] at hlarge
  have hn : n ≠ 0 := by
    rintro rfl
    simp at h
  have hlog : ∀ size, 2 ^ size ≤ n → size ≤ n.log2 := fun _ => (Nat.le_log2 hn).2
  have hsize := hlog (3 * 400) hlarge
  exact (limit_le_rounded_iff n).2 (.inl (by omega))

theorem ofDecimal_eq (n : Nat) : ofDecimal false n 0 =
    if n = 0 then finite false 0 0
    else if 400 < (Nat.toDigits 10 n).length then infinite false
    else ofRatio false n 1 := by
  have hsize : ∀ size : Nat, ¬((size : Int) + 0 < -400) := by omega
  have hlarge : ∀ size : Nat, 400 < (size : Int) + 0 ↔ 400 < size := by omega
  rw [ofDecimal]
  simp only [hsize, or_false, hlarge, le_refl, if_true, Int.toNat_zero]
  rw [show n * Nat.pow 10 0 = n from Nat.mul_one n]

theorem ofDecimal_of_limit_le (h : limit ≤ rounded n) : ofDecimal false n 0 = infinite false := by
  rw [ofDecimal_eq, if_neg (ne_zero_of_limit_le h)]
  split
  · rfl
  · exact ofRatio_of_limit_le h

theorem whole_ofDecimal (h : rounded n < limit) : Whole (ofDecimal false n 0) (rounded n) := by
  rw [ofDecimal_eq]
  split
  · next hn =>
    refine ⟨0, 0, rfl, ?_⟩
    rw [hn, rounded_of_lt (by decide)]
    simp
  · next hn =>
    rw [if_neg fun hlength => Nat.not_le.2 h (limit_le_of_length hlength)]
    exact whole_ofRatio hn h

theorem compare?_ofDecimal (m n : Nat) :
    (ofDecimal false m 0).compare? (ofDecimal false n 0) = some .eq ↔
      rounded m = rounded n ∨ limit ≤ rounded m ∧ limit ≤ rounded n := by
  rcases Nat.lt_or_ge (rounded m) limit with hm | hm <;>
    rcases Nat.lt_or_ge (rounded n) limit with hn | hn
  · rw [compare?_whole (whole_ofDecimal hm) (whole_ofDecimal hn)]
    omega
  · rw [ofDecimal_of_limit_le hn]
    exact iff_of_false (compare?_infinite_whole (whole_ofDecimal hm)).1 (by omega)
  · rw [ofDecimal_of_limit_le hm]
    exact iff_of_false (compare?_infinite_whole (whole_ofDecimal hn)).2 (by omega)
  · rw [ofDecimal_of_limit_le hm, ofDecimal_of_limit_le hn]
    exact iff_of_true rfl (.inr ⟨hm, hn⟩)

/-! ## Numbers that are confused -/

/-- The numbers differ, but both are rounded to the same number, or up to the limit. -/
def Confused (m n : Nat) : Prop :=
  m ≠ n ∧ (rounded m = rounded n ∨ limit ≤ rounded m ∧ limit ≤ rounded n)

instance (m n : Nat) : Decidable (Confused m n) := inferInstanceAs (Decidable (_ ∧ _))

theorem compare?_ofDecimal_iff (m n : Nat) :
    (ofDecimal false m 0).compare? (ofDecimal false n 0) = some .eq ↔ m = n ∨ Confused m n := by
  rw [compare?_ofDecimal, Confused]
  by_cases h : m = n
  · simp [h]
  · simp [h]

theorem Confused.symm (h : Confused m n) : Confused n m :=
  ⟨h.1.symm, h.2.imp Eq.symm And.symm⟩

theorem Confused.le (h : Confused m n) : 2 ^ 53 ≤ m := by
  refine Nat.le_of_not_lt fun hm => ?_
  have hlimit : 2 ^ 53 ≤ limit := by
    rw [limit_eq 53 971 rfl]
    exact Nat.le_mul_of_pos_right _ (pow_pos two_pos _)
  have hexact := rounded_of_lt hm
  rcases Nat.lt_or_ge n (2 ^ 53) with hn | hn
  · have hexact' := rounded_of_lt hn
    have hne := h.1
    have hsame := h.2
    omega
  · have hlarge := le_rounded_of_le hn
    have hsame := h.2
    omega

theorem two_pow_mul_gap_le (h : 2 ^ 53 ≤ n) : 2 ^ 52 * gap n ≤ n := by
  have hn : n ≠ 0 := by rintro rfl; simp at h
  have hlog : 53 ≤ n.log2 := (Nat.le_log2 hn).2 h
  rw [← two_pow_eq_mul_gap (by omega)]
  exact Nat.log2_self_le hn

theorem Confused.bounds (h : Confused m n) : 2 ^ 53 ≤ m ∧ 2 ^ 53 ≤ n ∧
    (limit ≤ rounded m ∧ limit ≤ rounded n ∨ 2 ^ 52 * (max m n - min m n) ≤ max m n) := by
  refine ⟨h.le, h.symm.le, ?_⟩
  rcases h.2 with hsame | hlarge
  · have hm := near_rounded m
    have hn := near_rounded n
    have hgapm := two_pow_mul_gap_le h.le
    have hgapn := two_pow_mul_gap_le h.symm.le
    exact .inr (by omega)
  · exact .inl hlarge

end Signpost.Binary64
