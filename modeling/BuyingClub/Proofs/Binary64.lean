import BuyingClub.Binary64
import Mathlib.Data.Nat.Dist
import Mathlib.Tactic.Ring

/-!
# Nearest doubles

A ratio is rounded to a multiple of a power of two, the unit in the last place of its double. No
other multiple is nearer, and what a double holds is not rounded.
-/

namespace BuyingClub

/-! ## Rounding -/

/-- `m` is no more than half a unit from `n / d`, and even if it is so far. -/
structure IsNearestEven (m n d : Nat) : Prop where
  above : 2 * n ≤ 2 * (d * m) + d
  below : 2 * (d * m) ≤ 2 * n + d
  even : 2 * n = 2 * (d * m) + d ∨ 2 * (d * m) = 2 * n + d → m % 2 = 0

theorem roundDivEven_isNearestEven (n : Nat) {d : Nat} (hd : 0 < d) :
    IsNearestEven (roundDivEven n d) n d := by
  have hsplit := Nat.div_add_mod n d
  have hrest := Nat.mod_lt n hd
  have hnext : d * (n / d + 1) = d * (n / d) + d := Nat.mul_succ ..
  unfold roundDivEven
  dsimp only
  split
  · constructor <;> omega
  · split
    · constructor <;> omega
    · split <;> constructor <;> omega

namespace IsNearestEven

variable {m m' n n' d : Nat}

theorem not_lt (h : IsNearestEven m n d) (h' : IsNearestEven m' n d) (hd : 0 < d) : ¬m < m' := by
  intro hlt
  have habove := h.above
  have hbelow := h'.below
  have hstep : d * (m + 1) ≤ d * m' := Nat.mul_le_mul_left d hlt
  rw [Nat.mul_succ] at hstep
  -- Both are half a unit away, but only one of them is even.
  have hnext : m' = m + 1 := by
    apply Nat.eq_of_mul_eq_mul_left hd
    rw [Nat.mul_succ]
    omega
  have heven := h.even (by omega)
  have heven' := h'.even (by omega)
  omega

theorem unique (h : IsNearestEven m n d) (h' : IsNearestEven m' n d) (hd : 0 < d) : m = m' :=
  Nat.le_antisymm (Nat.not_lt.mp (h'.not_lt h hd)) (Nat.not_lt.mp (h.not_lt h' hd))

theorem of_nearer (h : IsNearestEven m n d)
    (nearer : Nat.dist n' (d * m) ≤ Nat.dist n (d * m)) : IsNearestEven m n' d := by
  have habove := h.above
  have hbelow := h.below
  unfold Nat.dist at nearer
  refine ⟨by omega, by omega, fun tie => h.even ?_⟩
  omega

end IsNearestEven

theorem roundDivEven_le {n d k : Nat} (hd : 0 < d) (h : n ≤ d * k) : roundDivEven n d ≤ k := by
  refine Nat.le_of_not_lt fun hlt => ?_
  have hbelow := (roundDivEven_isNearestEven n hd).below
  have hmul : d * (k + 1) ≤ d * roundDivEven n d := Nat.mul_le_mul_left d (by omega)
  rw [Nat.mul_succ] at hmul
  omega

theorem le_roundDivEven {n d k : Nat} (hd : 0 < d) (h : d * k ≤ n) : k ≤ roundDivEven n d := by
  refine Nat.le_of_not_lt fun hlt => ?_
  have habove := (roundDivEven_isNearestEven n hd).above
  have hmul : d * (roundDivEven n d + 1) ≤ d * k := Nat.mul_le_mul_left d (by omega)
  rw [Nat.mul_succ] at hmul
  omega

theorem le_add_of_dvd {s a b k : Nat} (ha : s ∣ a) (hb : s ∣ b) (h : a < b + s * (k + 1)) :
    a ≤ b + s * k := by
  obtain ⟨p, rfl⟩ := ha
  obtain ⟨q, rfl⟩ := hb
  rw [← Nat.mul_add] at h ⊢
  have hlt : p < q + (k + 1) := Nat.lt_of_mul_lt_mul_left h
  exact Nat.mul_le_mul_left s (Nat.le_of_lt_succ hlt)

theorem eq_of_dvd_of_near {s a b : Nat} (ha : s ∣ a) (hb : s ∣ b) (above : a < b + s)
    (below : b < a + s) : a = b := by
  have hle := le_add_of_dvd (k := 0) ha hb (by omega)
  have hge := le_add_of_dvd (k := 0) hb ha (by omega)
  omega

namespace Magnitude

protected theorem one_pos : 0 < one := by
  unfold one
  generalize 1074 = e
  exact Nat.two_pow_pos e

theorem eq_of_units {x y : Magnitude} (h : x.units = y.units) : x = y := by
  cases x
  cases y
  cases h
  rfl

/-! ## Last places -/

theorem scale_le {x k : Nat} (h : x < 2 ^ (k + 53)) : scale x ≤ k := by
  by_cases hx : x = 0
  · rw [hx]
    exact Nat.zero_le k
  · have hlog := (Nat.log2_lt hx).mpr h
    unfold scale
    omega

theorem mul_two_pow_lt {m k : Nat} (h : m < 2 ^ 53) : m * 2 ^ k < 1 * 2 ^ (k + 53) := by
  rw [Nat.one_mul, Nat.add_comm, Nat.pow_add]
  exact Nat.mul_lt_mul_of_pos_right h (Nat.two_pow_pos k)

theorem lt_two_pow_scale (x : Nat) : x < 2 ^ (scale x + 53) := by
  refine Nat.lt_of_lt_of_le Nat.lt_log2_self (Nat.pow_le_pow_right (by decide) ?_)
  unfold scale
  omega

theorem two_pow_scale_le {x : Nat} (h : 2 ^ 52 ≤ x) : 2 ^ (scale x + 52) ≤ x := by
  have hx : x ≠ 0 := by
    rintro rfl
    exact absurd h (by decide)
  have hlog := (Nat.le_log2 hx).mpr h
  apply (Nat.le_log2 hx).mp
  unfold scale
  omega

theorem le_scale {x k : Nat} (h : 2 ^ (k + 52) ≤ x) : k ≤ scale x := by
  have hx : x ≠ 0 := by
    rintro rfl
    exact absurd h (Nat.not_le.mpr (Nat.two_pow_pos _))
  have hlog := (Nat.le_log2 hx).mpr h
  unfold scale
  omega

theorem scale_eq {x k : Nat} (low : 2 ^ (k + 52) ≤ x) (high : x < 2 ^ (k + 53)) : scale x = k :=
  Nat.le_antisymm (scale_le high) (le_scale low)

theorem two_pow_dvd_mul {e k : Nat} (h : e ≤ k) (m : Nat) : 2 ^ e ∣ m * 2 ^ k :=
  Nat.dvd_trans (Nat.pow_dvd_pow 2 h) (Nat.dvd_mul_left _ m)

theorem two_pow_scale_dvd (x : Magnitude) : 2 ^ scale x.units ∣ x.units ∧ scale x.units ≤ 2045 := by
  obtain ⟨m, e, hm, he, hx⟩ := x.representable
  have hlt := mul_two_pow_lt (k := e) hm
  rw [Nat.one_mul, ← hx] at hlt
  have hscale := scale_le hlt
  refine ⟨?_, Nat.le_trans hscale he⟩
  conv => rhs; rw [hx]
  exact two_pow_dvd_mul hscale m

/-! ## The nearest magnitude -/

variable {n n' d m e k : Nat} {x : Magnitude}

theorem ofRatio?_eq_some (h : ofRatio? n d = some x) :
    scale (n / d) ≤ 2045 ∧
      x.units = roundDivEven n (d * 2 ^ scale (n / d)) * 2 ^ scale (n / d) := by
  unfold ofRatio? at h
  dsimp only at h
  split at h
  · rename_i hfits
    cases h
    exact ⟨hfits.2, rfl⟩
  · split at h
    · rename_i hfits
      cases h
      exact ⟨Nat.le_of_lt hfits.2, rfl⟩
    · cases h

theorem ofRatio?_of_lt (he : scale (n / d) ≤ 2045)
    (hlt : roundDivEven n (d * 2 ^ scale (n / d)) < 2 ^ 53)
    (hx : x.units = roundDivEven n (d * 2 ^ scale (n / d)) * 2 ^ scale (n / d)) :
    ofRatio? n d = some x := by
  unfold ofRatio?
  dsimp only
  rw [dif_pos ⟨hlt, he⟩]
  exact congrArg some (eq_of_units hx.symm)

/-- A magnitude that is nearest to `n / d`: a multiple of `2 ^ e`, and no more than half of that
away. -/
structure IsNear (x : Magnitude) (e n d : Nat) : Prop where
  dvd : 2 ^ e ∣ x.units
  above : 2 * n ≤ 2 * (d * x.units) + d * 2 ^ e
  below : 2 * (d * x.units) ≤ 2 * n + d * 2 ^ e

theorem isNear_of_ofRatio? (hd : 0 < d) (h : ofRatio? n d = some x) :
    x.IsNear (scale (n / d)) n d := by
  obtain ⟨_, hunits⟩ := ofRatio?_eq_some h
  have hnear := roundDivEven_isNearestEven n (Nat.mul_pos hd (Nat.two_pow_pos (scale (n / d))))
  generalize roundDivEven n (d * 2 ^ scale (n / d)) = m at *
  have hproduct : d * 2 ^ scale (n / d) * m = d * x.units := by
    rw [hunits, Nat.mul_assoc, Nat.mul_comm (2 ^ _)]
  have habove := hnear.above
  have hbelow := hnear.below
  rw [hproduct] at habove hbelow
  exact ⟨hunits ▸ Nat.dvd_mul_left .., habove, hbelow⟩

theorem exists_ofRatio? (hd : 0 < d) (h : n < d * 2 ^ (k + 53)) (hk : k < 2045) :
    scale (n / d) ≤ k ∧ ∃ x, ofRatio? n d = some x := by
  have hscale : scale (n / d) ≤ k :=
    scale_le ((Nat.div_lt_iff_lt_mul hd).mpr (by rwa [Nat.mul_comm]))
  have hmost : roundDivEven n (d * 2 ^ scale (n / d)) ≤ 2 ^ 53 := by
    apply roundDivEven_le (Nat.mul_pos hd (Nat.two_pow_pos _))
    have hlt := (Nat.div_lt_iff_lt_mul hd).mp (lt_two_pow_scale (n / d))
    rw [Nat.pow_add, Nat.mul_comm] at hlt
    rw [Nat.mul_assoc]
    exact Nat.le_of_lt hlt
  refine ⟨hscale, ?_⟩
  unfold ofRatio?
  dsimp only
  split
  · exact ⟨_, rfl⟩
  · rw [dif_pos (by omega)]
    exact ⟨_, rfl⟩

theorem ofRatio?_near (hd : 0 < d) (h : n < d * 2 ^ (k + 53)) (hk : k < 2045) :
    ∃ x e, ofRatio? n d = some x ∧ e ≤ k ∧ x.IsNear e n d := by
  obtain ⟨hscale, x, hx⟩ := exists_ofRatio? hd h hk
  exact ⟨x, scale (n / d), hx, hscale, isNear_of_ofRatio? hd hx⟩

theorem IsNear.eq_of_dvd (h : x.IsNear e n 1) (dvd : 2 ^ e ∣ n) : x.units = n := by
  have hpos := Nat.two_pow_pos e
  have habove := h.above
  have hbelow := h.below
  exact eq_of_dvd_of_near h.dvd dvd (by omega) (by omega)

theorem IsNear.nearest (h : x.IsNear e n 1) (dvd : 2 ^ e ∣ m) :
    Nat.dist n x.units ≤ Nat.dist n m := by
  have habove := h.above
  have hbelow := h.below
  -- Two multiples are the same, or a whole last place apart.
  have hstep {a b : Nat} (ha : 2 ^ e ∣ a) (hb : 2 ^ e ∣ b) (hlt : a < b) : a + 2 ^ e ≤ b := by
    refine Nat.le_of_not_lt fun hless => ?_
    have := le_add_of_dvd (k := 0) hb ha (by omega)
    omega
  unfold Nat.dist
  rcases Nat.lt_trichotomy x.units m with hlt | rfl | hlt
  · have hfar := hstep h.dvd dvd hlt
    omega
  · exact Nat.le_refl _
  · have hfar := hstep dvd h.dvd hlt
    omega

theorem dist_le_of_ofRatio? (h : ofRatio? n 1 = some x) : 2 ^ 53 * Nat.dist n x.units ≤ n := by
  have hnear := isNear_of_ofRatio? Nat.one_pos h
  rw [Nat.div_one] at hnear
  rcases Nat.lt_or_ge n (2 ^ 52) with hsmall | hlarge
  · -- The last place is a unit, so nothing is rounded.
    have hscale : scale n = 0 := by
      apply Nat.le_zero.mp
      apply scale_le
      omega
    rw [hscale] at hnear
    rw [hnear.eq_of_dvd (Nat.one_dvd n), Nat.dist_self]
    exact Nat.zero_le n
  · have hleast := two_pow_scale_le hlarge
    have habove := hnear.above
    have hbelow := hnear.below
    rw [Nat.pow_add] at hleast
    generalize 2 ^ scale n = place at *
    unfold Nat.dist
    omega

theorem ofRatio?_of_isNearestEven (hd : 0 < d) (hx : x.units = m * 2 ^ e) (he : e ≤ 2045)
    (low : 2 ^ 52 < m) (high : m < 2 ^ 53) (h : IsNearestEven m n (d * 2 ^ e)) :
    ofRatio? n d = some x := by
  have hscale : scale (n / d) = e := by
    have habove := h.above
    have hbelow := h.below
    have hpos : 0 < d * 2 ^ e := Nat.mul_pos hd (Nat.two_pow_pos e)
    have hleast : d * 2 ^ e * (2 ^ 52 + 1) ≤ d * 2 ^ e * m := Nat.mul_le_mul_left _ low
    have hmost : d * 2 ^ e * m + d * 2 ^ e ≤ d * 2 ^ e * 2 ^ 53 := Nat.mul_le_mul_left _ high
    have hpower (k : Nat) : 2 ^ (e + k) * d = d * 2 ^ e * 2 ^ k := by
      rw [Nat.pow_add, Nat.mul_comm, Nat.mul_assoc]
    generalize d * 2 ^ e = step at *
    apply scale_eq
    · apply (Nat.le_div_iff_mul_le hd).mpr
      have hlow := hpower 52
      omega
    · apply (Nat.div_lt_iff_lt_mul hd).mpr
      have hhigh := hpower 53
      omega
  have hround : roundDivEven n (d * 2 ^ e) = m :=
    (roundDivEven_isNearestEven n (Nat.mul_pos hd (Nat.two_pow_pos e))).unique h
      (Nat.mul_pos hd (Nat.two_pow_pos e))
  apply ofRatio?_of_lt <;> rw [hscale]
  · exact he
  · rwa [hround]
  · rwa [hround]

theorem ofRatio?_mul_units (hd : 0 < d) (x : Magnitude) : ofRatio? (d * x.units) d = some x := by
  obtain ⟨⟨m, hm⟩, he⟩ := x.two_pow_scale_dvd
  have hlt := lt_two_pow_scale x.units
  have hround : roundDivEven (d * x.units) (d * 2 ^ scale x.units) = m := by
    have hpos := Nat.mul_pos hd (Nat.two_pow_pos (scale x.units))
    have hproduct : d * 2 ^ scale x.units * m = d * x.units := by
      rw [Nat.mul_assoc, ← hm]
    refine (roundDivEven_isNearestEven _ hpos).unique ⟨?_, ?_, ?_⟩ hpos <;> rw [hproduct] <;> omega
  have hfits : m < 2 ^ 53 := by
    rw [Nat.pow_add] at hlt
    apply Nat.lt_of_mul_lt_mul_left (a := 2 ^ scale x.units)
    rwa [← hm]
  apply ofRatio?_of_lt <;> rw [Nat.mul_div_cancel_left _ hd]
  · exact he
  · rwa [hround]
  · rw [hround, Nat.mul_comm, ← hm]

/-- What is as near to a double as a ratio that is rounded to it is rounded to it as well, unless
the double is a power of two, below which the doubles lie twice as close. -/
theorem ofRatio?_of_nearer (hd : 0 < d) (h : ofRatio? n d = some x) (large : 2 ^ 52 ≤ n / d)
    (nearer : Nat.dist n' (d * x.units) ≤ Nat.dist n (d * x.units)) :
    ofRatio? n' d = some x ∨ ∃ k, x.units = 2 ^ k := by
  obtain ⟨he, hunits⟩ := ofRatio?_eq_some h
  have hpos := Nat.mul_pos hd (Nat.two_pow_pos (scale (n / d)))
  have hround := roundDivEven_isNearestEven n hpos
  have hleast : 2 ^ 52 ≤ roundDivEven n (d * 2 ^ scale (n / d)) := by
    apply le_roundDivEven hpos
    rw [Nat.mul_assoc, ← Nat.pow_add, Nat.mul_comm]
    exact (Nat.le_div_iff_mul_le hd).mp (two_pow_scale_le large)
  have hmost : roundDivEven n (d * 2 ^ scale (n / d)) ≤ 2 ^ 53 := by
    apply roundDivEven_le hpos
    rw [Nat.mul_assoc, ← Nat.pow_add, Nat.mul_comm]
    exact Nat.le_of_lt ((Nat.div_lt_iff_lt_mul hd).mp (lt_two_pow_scale (n / d)))
  generalize roundDivEven n (d * 2 ^ scale (n / d)) = m at *
  rcases Nat.eq_or_lt_of_le hleast with rfl | hlow
  · exact .inr ⟨_, hunits.trans (Nat.pow_add ..).symm⟩
  · rcases Nat.eq_or_lt_of_le hmost with rfl | hhigh
    · exact .inr ⟨_, hunits.trans (Nat.pow_add ..).symm⟩
    · left
      apply ofRatio?_of_isNearestEven hd hunits he hlow hhigh
      apply hround.of_nearer
      rwa [Nat.mul_assoc, Nat.mul_comm (2 ^ _), ← hunits]

end Magnitude

namespace Binary64

open Magnitude

theorem ofRatio_eq_finite {negative : Bool} {n d : Nat} {x : Magnitude}
    (h : ofRatio? n d = some x) : ofRatio negative n d = .finite negative x := by
  unfold ofRatio
  rw [h]

theorem ofInt_eq_finite {n : Int} (h : n.natAbs ≤ 2 ^ 53) :
    ∃ x : Magnitude, ofInt n = .finite (decide (n < 0)) x ∧ x.units = n.natAbs * one := by
  have hrepresentable : Representable (n.natAbs * one) := by
    rcases Nat.lt_or_eq_of_le h with hlt | heq
    · exact ⟨n.natAbs, 1074, hlt, by decide, rfl⟩
    · refine ⟨2 ^ 52, 1075, by decide, by decide, ?_⟩
      rw [heq]
      decide +kernel
  have hexact := ofRatio?_mul_units Nat.one_pos ⟨n.natAbs * one, hrepresentable⟩
  rw [Nat.one_mul] at hexact
  exact ⟨_, ofRatio_eq_finite hexact, rfl⟩

end Binary64

end BuyingClub
