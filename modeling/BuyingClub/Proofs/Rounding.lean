import BuyingClub.Proofs.Results
import BuyingClub.Rounding

/-!
# The nearest integer

`roundDiv` gives the integer nearest to a quotient, and of two that are equally near the one farther
from zero. There is only one such integer. So the rule alone decides how rounding goes along with
signs and with the order.
-/

namespace BuyingClub

/-! ## Numerators that are not negative -/

theorem roundDiv_nonneg {n d : Int} (hn : 0 ≤ n) (hd : 0 < d) : 0 ≤ roundDiv n d := by
  have hd' : ¬ d < 0 := by omega
  simp only [roundDiv, roundHalfAway, roundHalfUp, hd', hn, if_true, if_false]
  exact Int.ediv_nonneg (by omega) (by omega)

theorem roundDiv_le {n d q : Int} (hn : 0 ≤ n) (hd : 0 < d) (h : n ≤ q * d) : roundDiv n d ≤ q := by
  have hd' : ¬ d < 0 := by omega
  simp only [roundDiv, roundHalfAway, roundHalfUp, hd', hn, if_true, if_false]
  have hlt : 2 * n + d < (q + 1) * (2 * d) := by
    have hdist : (q + 1) * (2 * d) = 2 * (q * d) + 2 * d := by
      rw [Int.add_mul, Int.one_mul, Int.mul_left_comm]
    omega
  have := Int.ediv_lt_of_lt_mul (by omega) hlt
  omega

theorem roundDiv_near {n d : Int} (hn : 0 ≤ n) (hd : 0 < d) :
    2 * n - d < 2 * (roundDiv n d * d) ∧ 2 * (roundDiv n d * d) ≤ 2 * n + d := by
  have hd' : ¬ d < 0 := by omega
  simp only [roundDiv, roundHalfAway, roundHalfUp, hd', hn, if_true, if_false]
  have hlow := Int.lt_ediv_add_one_mul_self (2 * n + d) (show 0 < 2 * d by omega)
  have hhigh := Int.ediv_mul_le (2 * n + d) (show 2 * d ≠ 0 by omega)
  have hcomm (x : Int) : x * (2 * d) = 2 * (x * d) := Int.mul_left_comm ..
  rw [hcomm, Int.add_mul, Int.one_mul] at hlow
  rw [hcomm] at hhigh
  omega

/-! ## The rule -/

/-- No integer is nearer to `x`, and those that are as near are nearer to zero. -/
structure IsNearestAway (x : ℚ) (r : Int) : Prop where
  nearest : ∀ m : Int, |x - r| ≤ |x - m|
  away : ∀ m : Int, m ≠ r → |x - m| = |x - r| → |m| < |r|

namespace IsNearestAway

variable {x y : ℚ} {r s : Int}

theorem unique (hr : IsNearestAway x r) (hs : IsNearestAway x s) : r = s := by
  by_contra hne
  have hdist : |x - s| = |x - r| := le_antisymm (hs.nearest r) (hr.nearest s)
  exact lt_asymm (hr.away s (Ne.symm hne) hdist) (hs.away r hne hdist.symm)

theorem neg (h : IsNearestAway x r) : IsNearestAway (-x) (-r) := by
  -- An integer is as far from `-x` as its negation is from `x`.
  have hdist (m : Int) : |-x - m| = |x - (-m : Int)| := by
    rw [← abs_neg]
    push_cast
    ring_nf
  constructor
  · intro m
    rw [hdist, hdist, neg_neg]
    exact h.nearest (-m)
  · intro m hm heq
    rw [hdist, hdist, neg_neg] at heq
    have hlt := h.away (-m) (fun hneg => hm (by rw [← hneg, neg_neg])) heq
    rwa [abs_neg] at hlt ⊢

theorem of_nonneg (hx : 0 ≤ x) (low : x - 1 / 2 < r) (high : r ≤ x + 1 / 2) :
    IsNearestAway x r := by
  have hclose : |x - r| ≤ 1 / 2 := abs_le.mpr ⟨by linarith, by linarith⟩
  have hbelow {m : Int} (hm : m < r) : 1 / 2 ≤ x - m := by
    have hstep : (m : ℚ) + 1 ≤ r := by exact_mod_cast hm
    linarith
  have habove {m : Int} (hm : r < m) : x - m < -(1 / 2) := by
    have hstep : (r : ℚ) + 1 ≤ m := by exact_mod_cast hm
    linarith
  constructor
  · intro m
    rcases lt_trichotomy m r with hm | rfl | hm
    · exact hclose.trans ((hbelow hm).trans (le_abs_self _))
    · exact le_refl _
    · have hfar : 1 / 2 < -(x - m) := by linarith [habove hm]
      exact hclose.trans (hfar.le.trans (neg_le_abs _))
  · intro m hne heq
    rcases lt_or_gt_of_ne hne with hm | hm
    · -- What is below and as near is half a unit away, so it is not negative.
      have hfar := hbelow hm
      rw [abs_of_nonneg (by linarith)] at heq
      have hlow : (-1 : Int) < m := by exact_mod_cast (show (-1 : ℚ) < m by linarith)
      rw [abs_of_nonneg (by omega)]
      exact hm.trans_le (le_abs_self r)
    · have hfar : 1 / 2 < -(x - m) := by linarith [habove hm]
      linarith [neg_le_abs (x - m)]

theorem add_le_two_mul (h : |x - r| ≤ |x - s|) (hlt : s < r) : (r + s : ℚ) ≤ 2 * x := by
  by_contra hless
  have hlt : (s : ℚ) < r := by exact_mod_cast hlt
  have hnear : |x - s| < r - x := abs_lt.mpr ⟨by linarith, by linarith⟩
  linarith [neg_le_abs (x - r)]

theorem mono (hr : IsNearestAway x r) (hs : IsNearestAway y s) (h : x ≤ y) : r ≤ s := by
  by_contra hlt
  have hlt : s < r := not_le.mp hlt
  have hx := add_le_two_mul (hr.nearest s) hlt
  have hy : 2 * y ≤ s + r := by
    have hneg := add_le_two_mul (hs.neg.nearest (-r)) (neg_lt_neg hlt)
    push_cast at hneg
    linarith
  -- Both lie at the midpoint.
  obtain rfl : x = y := by linarith
  exact hlt.ne (hs.unique hr)

end IsNearestAway

/-! ## Quotients -/

variable {n m d : Int}

theorem roundDiv_of_neg (n : Int) (hd : d < 0) : roundDiv n d = roundDiv (-n) (-d) := by
  have hpos : ¬ -d < 0 := by omega
  simp only [roundDiv, hd, hpos, if_true, if_false]

theorem roundDiv_of_neg_of_pos (hn : n < 0) (hd : 0 < d) : roundDiv n d = -roundDiv (-n) d := by
  have hd' : ¬ d < 0 := by omega
  have hn' : ¬ 0 ≤ n := by omega
  have hneg : 0 ≤ -n := by omega
  simp only [roundDiv, roundHalfAway, hd', hn', hneg, if_true, if_false]

theorem roundDiv_isNearestAway (n : Int) (hd : d ≠ 0) : IsNearestAway (n / d) (roundDiv n d) := by
  -- Both signs are taken out, the denominator's first.
  have hnonneg {n d : Int} (hn : 0 ≤ n) (hd : 0 < d) : IsNearestAway (n / d) (roundDiv n d) := by
    obtain ⟨hlow, hhigh⟩ := roundDiv_near hn hd
    generalize roundDiv n d = r at *
    have hlow : 2 * n - d < 2 * (r * d : ℚ) := by exact_mod_cast hlow
    have hhigh : 2 * (r * d : ℚ) ≤ 2 * n + d := by exact_mod_cast hhigh
    have hd : (0 : ℚ) < d := by exact_mod_cast hd
    have hn : (0 : ℚ) ≤ n := by exact_mod_cast hn
    have hquotient : (n / d : ℚ) * d = n := div_mul_cancel₀ _ hd.ne'
    apply IsNearestAway.of_nonneg (div_nonneg hn hd.le)
    · nlinarith
    · nlinarith
  have hpositive {n d : Int} (hd : 0 < d) : IsNearestAway (n / d) (roundDiv n d) := by
    rcases lt_or_ge n 0 with hn | hn
    · have h := (hnonneg (show 0 ≤ -n by omega) hd).neg
      rw [roundDiv_of_neg_of_pos hn hd]
      rwa [Int.cast_neg, neg_div, neg_neg] at h
    · exact hnonneg hn hd
  rcases lt_or_gt_of_ne hd with hd | hd
  · have h := hpositive (n := -n) (show 0 < -d by omega)
    rw [roundDiv_of_neg n hd]
    rwa [Int.cast_neg, Int.cast_neg, neg_div_neg_eq] at h
  · exact hpositive hd

/-! ## What follows from the rule -/

theorem roundDiv_neg_left (n : Int) (hd : d ≠ 0) : roundDiv (-n) d = -roundDiv n d := by
  apply (roundDiv_isNearestAway (-n) hd).unique
  rw [Int.cast_neg, neg_div]
  exact (roundDiv_isNearestAway n hd).neg

theorem roundDiv_neg_right (n : Int) (hd : d ≠ 0) : roundDiv n (-d) = -roundDiv n d := by
  apply (roundDiv_isNearestAway n (neg_ne_zero.mpr hd)).unique
  rw [Int.cast_neg, div_neg]
  exact (roundDiv_isNearestAway n hd).neg

theorem roundDiv_le_roundDiv (hd : 0 < d) (h : n ≤ m) : roundDiv n d ≤ roundDiv m d := by
  apply (roundDiv_isNearestAway n hd.ne').mono (roundDiv_isNearestAway m hd.ne')
  have hd : (0 : ℚ) < d := by exact_mod_cast hd
  exact div_le_div_of_nonneg_right (by exact_mod_cast h) hd.le

end BuyingClub
