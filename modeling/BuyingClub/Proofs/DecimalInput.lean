import BuyingClub.Proofs.Hundredths
import BuyingClub.Proofs.Results

/-!
# Decimal input

A double is read as hundredths if its hundredfold, rounded once, is within a millionth of a whole
number. So input that is finer than a hundredth can be altered, but by no more than that millionth
and the rounding. Input that stands for an amount is not altered, also where two amounts share a
double.
-/

namespace BuyingClub

/-! ## The number that a double is -/

theorem signed_mul (negative : Bool) (a b : Nat) :
    signed negative (a * b) = signed negative a * b := by
  cases negative <;> simp [signed]

theorem abs_signed_sub (negative : Bool) (a b : Nat) :
    |signed negative a - signed negative b| = Nat.dist a b := by
  rw [Int.abs_eq_natAbs]
  unfold signed Nat.dist
  split <;> omega

namespace Binary64

/-- The number of units in a finite double, with its sign. -/
def units? : Binary64 → Option Int
  | finite negative x => some (signed negative x.units)
  | _ => none

def toRat? (v : Binary64) : Option ℚ := v.units?.map fun n : Int => (n : ℚ) / Magnitude.one

theorem units?_eq_of_toRat?_eq {v w : Binary64} (h : v.toRat? = w.toRat?) :
    v.units? = w.units? := by
  have hpos : (Magnitude.one : ℚ) ≠ 0 := Nat.cast_ne_zero.mpr Magnitude.one_pos.ne'
  have hinjective : Function.Injective fun n : Int => (n : ℚ) / Magnitude.one :=
    fun _ _ h => Int.cast_injective ((div_left_inj' hpos).mp h)
  exact Option.map_injective hinjective h

theorem toRat?_eq_div {v : Binary64} {n p q : Nat} (hunits : v.units? = some (n : Int))
    (hq : 0 < q) (h : n * q = p * Magnitude.one) : v.toRat? = some ((p : ℚ) / q) := by
  have hpos : (0 : ℚ) < Magnitude.one := Nat.cast_pos.mpr Magnitude.one_pos
  have hq : (0 : ℚ) < q := Nat.cast_pos.mpr hq
  unfold toRat?
  rw [hunits]
  refine congrArg some ((div_eq_div_iff hpos.ne' hq.ne').mpr ?_)
  exact_mod_cast h

end Binary64

namespace Hundredths

open Magnitude

variable {v w : Binary64} {x y : Magnitude} {m : Nat} {n : Int} {r : ℚ}

/-! ## Hundredfolds -/

namespace IsHundredfold

theorem dist_le (h : IsHundredfold x y m) :
    2 ^ 53 * Nat.dist (x.units * 100) (m * one) ≤ x.units * 100 + 2 ^ 53 * tolerance := by
  have hrounded := dist_le_of_ofRatio? h.rounded
  have hbelow := h.below
  have habove := h.above
  unfold Nat.dist at hrounded ⊢
  omega

/-- From `2 ^ 33` on, the last place of a hundredfold exceeds the tolerance. -/
theorem units_eq_of_large (h : IsHundredfold x y m) (large : 2 ^ 33 < m) : y.units = m * one := by
  obtain ⟨j, hj⟩ : ∃ j, 1055 = j := ⟨_, rfl⟩
  have hone : one = 2 ^ 19 * 2 ^ j := two_pow_split (by omega)
  have htolerance : tolerance < 2 ^ 1055 := by decide +kernel
  rw [hj] at htolerance
  have hbelow := h.below
  have habove := h.above
  have hleast : (2 ^ 33 + 1) * one ≤ m * one := Nat.mul_le_mul_right one large
  have hplace : 2 ^ (j + 52) ≤ y.units := by
    rw [Nat.pow_add]
    omega
  have hdvd : 2 ^ j ∣ y.units :=
    Nat.dvd_trans (Nat.pow_dvd_pow 2 (le_scale hplace)) y.two_pow_scale_dvd.1
  have hwhole : 2 ^ j ∣ m * one := two_pow_dvd_mul (by omega) m
  exact eq_of_dvd_of_near hdvd hwhole (by omega) (by omega)

end IsHundredfold

/-! ## Amounts that share a double -/

theorem exists_hundredth {N : Nat} (h : N < 2 ^ 53) :
    ∃ x, ofRatio? (N * one) 100 = some x ∧ N * one < x.units * 100 + one ∧
      x.units * 100 < N * one + one := by
  obtain ⟨j, hj⟩ : ∃ j, 1068 = j := ⟨_, rfl⟩
  have hone : one = 2 ^ 6 * 2 ^ j := two_pow_split (by omega)
  have hpos := Nat.two_pow_pos j
  have hmost : N * one < 2 ^ 53 * one := Nat.mul_lt_mul_of_pos_right h Magnitude.one_pos
  have hroom : N * one < 100 * 2 ^ (j + 53) := by
    rw [Nat.pow_add]
    omega
  obtain ⟨x, e, hx, he, hnear⟩ := ofRatio?_near (by decide) hroom (by omega)
  have hpow : 2 ^ e ≤ 2 ^ j := Nat.pow_le_pow_right (by decide) he
  have habove := hnear.above
  have hbelow := hnear.below
  exact ⟨x, hx, by omega, by omega⟩

theorem ofRatio?_of_hundredfold {N : Nat} (hN : 0 < N) (hlt : N < 2 ^ 53)
    (hx : ofRatio? (N * one) 100 = some x) (hy : ofRatio? (x.units * 100) 1 = some y)
    (hm : y.units = m * one) : ofRatio? (m * one) 100 = some x := by
  obtain ⟨_, hx', _, hbelow⟩ := exists_hundredth hlt
  obtain rfl := Option.some.inj (hx.symm.trans hx')
  have hnear := isNear_of_ofRatio? Nat.one_pos hy
  obtain ⟨i, hone, hi⟩ : ∃ i, one = 2 ^ i ∧ i = 1074 := ⟨_, rfl, rfl⟩
  have hmost : (N + 1) * one ≤ 2 ^ 53 * one := Nat.mul_le_mul_right one hlt
  have hleast : 1 * one ≤ N * one := Nat.mul_le_mul_right one hN
  -- The last place of the hundredfold is one at most, so that the whole number is a multiple.
  have hplace : scale (x.units * 100 / 1) ≤ i := by
    apply scale_le
    rw [Nat.div_one, Nat.pow_add, ← hone]
    rw [Nat.succ_mul] at hmost
    omega
  have hdvd : 2 ^ scale (x.units * 100 / 1) ∣ N * one := hone ▸ two_pow_dvd_mul hplace N
  have hlarge : 2 ^ 52 ≤ N * one / 100 := by
    apply (Nat.le_div_iff_mul_le (by decide)).mpr
    have hpow : 2 ^ 60 ≤ 2 ^ i := Nat.pow_le_pow_right (by decide) (by omega)
    omega
  have hnearer : Nat.dist (m * one) (100 * x.units) ≤ Nat.dist (N * one) (100 * x.units) := by
    rw [← hm, Nat.mul_comm 100, Nat.dist_comm, Nat.dist_comm (N * one)]
    exact hnear.nearest hdvd
  rcases ofRatio?_of_nearer (by decide) hx hlarge hnearer with hwrites | ⟨k, hk⟩
  · exact hwrites
  · -- The hundredfold of a power of two is not rounded.
    have hsmall : scale (x.units * 100 / 1) ≤ k := by
      have hpos := Nat.two_pow_pos k
      apply scale_le
      rw [Nat.div_one, hk, Nat.pow_add]
      omega
    have hdvd := two_pow_dvd_mul hsmall 100
    rw [← hk, Nat.mul_comm 100] at hdvd
    rw [← hm, hnear.eq_of_dvd hdvd, Nat.mul_comm]
    exact ofRatio?_mul_units (by decide) x

theorem toBinary64_eq_of_ofBinary64 {a : Int} (hn : n.natAbs ≤ 2 ^ 53) (ha : a.natAbs ≤ 2 ^ 53)
    (h : ofBinary64 (toBinary64 n) = .ok a) : toBinary64 a = toBinary64 n := by
  by_cases hsmall : n.natAbs < 2 ^ 40
  · rcases ofBinary64_toBinary64_or hsmall with hthrough | hdefect
    · rw [h] at hthrough
      rw [Except.ok.inj hthrough]
    · rw [h] at hdefect
      cases hdefect
  by_cases hlt : n.natAbs < 2 ^ 53
  · obtain ⟨x, hx, habove, _⟩ := exists_hundredth hlt
    have hwrites : toBinary64 n = .finite (decide (n < 0)) x := by
      rw [toBinary64_eq_ofRatio hn, Binary64.ofRatio_eq_finite hx]
    rw [hwrites] at h
    obtain ⟨_, _, y, m, heq, hm, rfl⟩ := ofBinary64_eq_ok_iff.mp h
    cases heq
    rw [natAbs_signed] at ha
    have hlarge : 2 ^ 33 < m := by
      have hdist := hm.dist_le
      have htolerance := tolerance_le
      have hleast : 2 ^ 40 * one ≤ n.natAbs * one :=
        Nat.mul_le_mul_right one (Nat.le_of_not_lt hsmall)
      unfold Nat.dist at hdist
      apply Nat.lt_of_mul_lt_mul_right (a := one)
      omega
    have hunits := hm.units_eq_of_large hlarge
    have hwrites' := ofRatio?_of_hundredfold (by omega) hlt hx hm.rounded hunits
    rw [hwrites, toBinary64_eq_ofRatio (by rwa [natAbs_signed]), natAbs_signed,
      decide_signed_neg (by omega), Binary64.ofRatio_eq_finite hwrites']
  · have hends : n = 2 ^ 53 ∨ n = -2 ^ 53 := by omega
    have hthrough : ofBinary64 (toBinary64 n) = .ok n := by
      rcases hends with rfl | rfl <;> decide +kernel
    rw [h] at hthrough
    rw [Except.ok.inj hthrough]

/-! ## Input and amount as numbers -/

theorem ofBinary64_congr (hv : v.toRat? = some r) (hw : w.toRat? = some r)
    (h : ofBinary64 v = .ok n) : ofBinary64 w = .ok n := by
  obtain ⟨negative, x, y, m, rfl, hm, rfl⟩ := ofBinary64_eq_ok_iff.mp h
  cases w with
  | nan => cases hw
  | infinite => cases hw
  | finite negative' x' =>
    have hunits := Binary64.units?_eq_of_toRat?_eq (hv.trans hw.symm)
    obtain ⟨heq, hsign⟩ := signed_eq_signed_iff.mp (Option.some.inj hunits)
    obtain rfl := eq_of_units heq
    refine ofBinary64_eq_ok_iff.mpr ⟨negative', x, y, m, rfl, hm, ?_⟩
    rcases hsign with rfl | hzero
    · rfl
    · have hdist := hm.dist_le
      have htolerance := tolerance_le
      have hpos := Magnitude.one_pos
      rw [hzero, Nat.zero_mul, Nat.zero_add, Nat.dist_eq_sub_of_le (Nat.zero_le _)] at hdist
      have hm : m * one < 1 * one := by omega
      have hm := Nat.lt_of_mul_lt_mul_right hm
      obtain rfl : m = 0 := by omega
      simp

theorem abs_sub_hundredths (negative : Bool) (a m : Nat) :
    |(signed negative a : ℚ) / one - signed negative m / 100| =
      Nat.dist (a * 100) (m * one) / (100 * one) := by
  have hpos : (0 : ℚ) < one := Nat.cast_pos.mpr Magnitude.one_pos
  -- The long number only has to be positive.
  generalize one = u at *
  have hsplit : (signed negative a : ℚ) / u - signed negative m / 100 =
      ((signed negative (a * 100) - signed negative (m * u) : Int) : ℚ) / (100 * u) := by
    rw [signed_mul, signed_mul]
    push_cast
    field_simp
  rw [hsplit, abs_div, abs_of_pos (by positivity : (0 : ℚ) < 100 * u), ← Int.cast_abs,
    abs_signed_sub]
  rfl

theorem abs_signed_div (negative : Bool) (a : Nat) :
    |(signed negative a : ℚ) / one| = a / one := by
  rw [abs_div, ← Int.cast_abs, Int.abs_eq_natAbs, natAbs_signed, Nat.abs_cast]
  rfl

theorem abs_sub_le_of_dist {a m t : Nat} (negative : Bool)
    (h : 2 ^ 53 * Nat.dist (a * 100) (m * one) ≤ a * 100 + 2 ^ 53 * t) :
    |(signed negative a : ℚ) / one - signed negative m / 100| ≤
      t / (100 * one) + |(signed negative a : ℚ) / one| / 2 ^ 53 := by
  have hpos : (0 : ℚ) < one := Nat.cast_pos.mpr Magnitude.one_pos
  rw [abs_sub_hundredths, abs_signed_div]
  generalize one = u at *
  have h' : (2 : ℚ) ^ 53 * Nat.dist (a * 100) (m * u) ≤ a * 100 + 2 ^ 53 * t := by
    exact_mod_cast h
  have hscaled : ((t : ℚ) / (100 * u) + a / u / 2 ^ 53) * (100 * u) = t + a * 100 / 2 ^ 53 := by
    field_simp
  rw [div_le_iff₀ (by positivity), hscaled]
  linarith

theorem dist_le_of_abs_sub {a m : Nat} (negative : Bool)
    (h : |(signed negative a : ℚ) / one - signed negative m / 100| +
      |(signed negative a : ℚ) / one| / 2 ^ 53 ≤ 99 / 10 ^ 10) :
    10 ^ 8 * (2 ^ 53 * Nat.dist (a * 100) (m * one) + a * 100) ≤ 99 * 2 ^ 53 * one := by
  have hpos : (0 : ℚ) < one := Nat.cast_pos.mpr Magnitude.one_pos
  rw [abs_sub_hundredths, abs_signed_div] at h
  generalize one = u at *
  have hscaled : (Nat.dist (a * 100) (m * u) : ℚ) / (100 * u) + a / u / 2 ^ 53 =
      (2 ^ 53 * Nat.dist (a * 100) (m * u) + a * 100) / (2 ^ 53 * (100 * u)) := by
    field_simp
  rw [hscaled, div_le_div_iff₀ (by positivity) (by positivity)] at h
  have h' : (10 : ℚ) ^ 8 * (2 ^ 53 * Nat.dist (a * 100) (m * u) + a * 100) ≤ 99 * 2 ^ 53 * u := by
    linarith
  exact_mod_cast h'

theorem exists_eq_signed (negative : Bool) (a : Nat)
    (h : |(signed negative a : ℚ) / one - n / 100| ≤ 99 / 10 ^ 10) :
    ∃ m, n = signed negative m := by
  have hnonneg : (0 : ℚ) ≤ (a : ℚ) / one := by positivity
  obtain ⟨hlow, hhigh⟩ := abs_le.mp h
  refine ⟨n.natAbs, ?_⟩
  cases negative with
  | false =>
    have hn : ¬n ≤ -1 := by
      intro hn
      have hn : (n : ℚ) ≤ -1 := by exact_mod_cast hn
      simp only [signed, Bool.false_eq_true, if_false, Int.cast_natCast] at hhigh
      linarith
    simp only [signed, Bool.false_eq_true, if_false]
    omega
  | true =>
    have hn : ¬1 ≤ n := by
      intro hn
      have hn : (1 : ℚ) ≤ n := by exact_mod_cast hn
      simp only [signed, if_true, Int.cast_neg, Int.cast_natCast, neg_div] at hlow
      linarith
    simp only [signed, if_true]
    omega

theorem ofBinary64_of_near (hv : v.toRat? = some r)
    (near : |r - n / 100| + |r| / 2 ^ 53 ≤ 99 / 10 ^ 10) : ofBinary64 v = .ok n := by
  cases v with
  | nan => cases hv
  | infinite => cases hv
  | finite negative x =>
    obtain rfl := Option.some.inj hv
    obtain ⟨m, rfl⟩ := exists_eq_signed negative x.units
      ((le_add_of_nonneg_right (by positivity)).trans near)
    have hdist := dist_le_of_abs_sub negative near
    have htolerance : 99 * one ≤ 10 ^ 8 * tolerance := by decide +kernel
    obtain ⟨i, hone, hi⟩ : ∃ i, one = 2 ^ i ∧ i = 1074 := ⟨_, rfl, rfl⟩
    have hpos := Magnitude.one_pos
    have hroom : x.units * 100 < 1 * 2 ^ (i + 53) := by
      rw [Nat.pow_add, ← hone]
      omega
    obtain ⟨_, y, hy⟩ := exists_ofRatio? Nat.one_pos hroom (by omega)
    have hrounded := dist_le_of_ofRatio? hy
    unfold Nat.dist at hdist hrounded
    refine ofBinary64_eq_ok_iff.mpr ⟨negative, x, y, m, rfl, ⟨hy, ?_, by omega, by omega⟩, rfl⟩
    unfold largest
    omega

/-- Some amount is written as the number `r`. -/
def IsAmount (r : ℚ) : Prop := ∃ m : Int, m.natAbs ≤ 2 ^ 53 ∧ (toBinary64 m).toRat? = some r

/-- How the number `r` stands to the `n` hundredths that it is read as. -/
structure IsReading (r : ℚ) (n : Int) : Prop where
  near : |r - n / 100| ≤ 1 / 10 ^ 8 + |r| / 2 ^ 53
  near_of_large : 2 ^ 33 < n.natAbs → |r - n / 100| ≤ |r| / 2 ^ 53
  unaltered_iff : n.natAbs ≤ 2 ^ 53 → ((toBinary64 n).toRat? = some r ↔ IsAmount r)

theorem isReading_of_ofBinary64 (hv : v.toRat? = some r) (h : ofBinary64 v = .ok n) :
    IsReading r n := by
  obtain ⟨negative, x, y, m, rfl, hm, rfl⟩ := ofBinary64_eq_ok_iff.mp h
  obtain rfl := Option.some.inj hv
  constructor
  · have hnear := abs_sub_le_of_dist negative hm.dist_le
    refine hnear.trans (add_le_add_left ?_ _)
    have htolerance := tolerance_le
    have hpos : (0 : ℚ) < one := Nat.cast_pos.mpr Magnitude.one_pos
    generalize one = u at *
    generalize tolerance = t at *
    have htolerance : (1000000 : ℚ) * t ≤ u := by exact_mod_cast htolerance
    rw [div_le_div_iff₀ (by positivity) (by positivity)]
    linarith
  · intro hlarge
    rw [natAbs_signed] at hlarge
    have hrounded := dist_le_of_ofRatio? hm.rounded
    rw [hm.units_eq_of_large hlarge] at hrounded
    have hnear := abs_sub_le_of_dist (t := 0) negative hrounded
    rwa [Nat.cast_zero, zero_div, zero_add] at hnear
  · intro hn
    refine ⟨fun hsame => ⟨_, hn, hsame⟩, fun ⟨a, ha, hsame⟩ => ?_⟩
    rw [toBinary64_eq_of_ofBinary64 ha hn (ofBinary64_congr rfl hsame h)]
    exact hsame

theorem ofBinary64_cases (hv : v.toRat? = some r) :
    (∃ n, ofBinary64 v = .ok n) ∨ ofBinary64 v = .error (.tooFine v) ∨
      ofBinary64 v = .error (.outOfRange v) := by
  cases v with
  | nan => cases hv
  | infinite => cases hv
  | finite negative x =>
    unfold ofBinary64
    dsimp only
    split
    · exact .inr (.inr rfl)
    · split
      · exact .inr (.inr rfl)
      · split
        · exact .inr (.inl rfl)
        · exact .inl ⟨_, rfl⟩

end Hundredths

/-- What is read as an amount differs from it by no more than a hundred-millionth and the rounding,
and beyond `2 ^ 33` hundredths by the rounding alone. Up to `2 ^ 53` hundredths, it is written again
as it was exactly if some amount is written so: only finer input is altered. All input within 99
hundredths of that distance is read, and all input beyond it is refused with a reason that names it.
-/
theorem only_finer_input_altered (v : Binary64) (r : ℚ) (hv : v.toRat? = some r) :
    (∀ q, Quantity.ofBinary64 v = .ok q → Hundredths.IsReading r q.hundredths) ∧
    (∀ m, Money.ofBinary64 v = .ok m → Hundredths.IsReading r m.cents) ∧
    (∀ n : Int, |r - n / 100| + |r| / 2 ^ 53 ≤ 99 / 10 ^ 10 →
      Quantity.ofBinary64 v = .ok ⟨n⟩ ∧ Money.ofBinary64 v = .ok ⟨n⟩) ∧
    ((∀ n : Int, 1 / 10 ^ 8 + |r| / 2 ^ 53 < |r - n / 100|) →
      ∃ defect, (defect = .tooFine v ∨ defect = .outOfRange v) ∧
        Quantity.ofBinary64 v = .error defect ∧ Money.ofBinary64 v = .error defect) := by
  refine ⟨fun q h => ?_, fun m h => ?_, fun n near => ?_, fun far => ?_⟩
  · obtain ⟨n, hn, rfl⟩ := map_eq_ok_iff.mp h
    exact Hundredths.isReading_of_ofBinary64 hv hn
  · obtain ⟨n, hn, rfl⟩ := map_eq_ok_iff.mp h
    exact Hundredths.isReading_of_ofBinary64 hv hn
  · have hreads := Hundredths.ofBinary64_of_near hv near
    exact ⟨map_eq_ok_iff.mpr ⟨n, hreads, rfl⟩, map_eq_ok_iff.mpr ⟨n, hreads, rfl⟩⟩
  · unfold Quantity.ofBinary64 Money.ofBinary64
    rcases Hundredths.ofBinary64_cases hv with ⟨n, hn⟩ | hfine | hrange
    · have hreads := Hundredths.isReading_of_ofBinary64 hv hn
      exact absurd hreads.near (not_le.mpr (far n))
    · rw [hfine]
      exact ⟨_, .inl rfl, rfl, rfl⟩
    · rw [hrange]
      exact ⟨_, .inr rfl, rfl, rfl⟩

/-- Where two amounts share a double, one is read as the other, and it is the same number still. An
eighth is refused; what is slightly more than a quarter is read. -/
theorem only_finer_input_altered_where_amounts_meet :
    (∃ r, (Money.toBinary64 ⟨9007199254740990⟩).toRat? = some r ∧
      Money.ofBinary64 (Money.toBinary64 ⟨9007199254740990⟩) = .ok ⟨9007199254740991⟩ ∧
      (Money.toBinary64 ⟨9007199254740991⟩).toRat? = some r) ∧
    (∃ r, (Quantity.toBinary64 ⟨115⟩).toRat? = some r ∧
      Quantity.ofBinary64 (Quantity.toBinary64 ⟨115⟩) = .ok ⟨115⟩ ∧
      |r - 115 / 100| < 1 / 10 ^ 7) ∧
    Quantity.ofBinary64 (.ofDecimal false 2500000037252902984619140625 (-28)) = .ok ⟨25⟩ ∧
    ∃ defect, Quantity.ofBinary64 (.ofDecimal false 125 (-3)) = .error defect ∧
      Money.ofBinary64 (.ofDecimal false 125 (-3)) = .error defect := by
  refine ⟨?_, ?_, ?_, ?_⟩
  · have hread : Money.ofBinary64 (Money.toBinary64 ⟨9007199254740990⟩) =
        .ok ⟨9007199254740991⟩ := by decide +kernel
    obtain ⟨r, hr⟩ := Option.isSome_iff_exists.mp
      (by decide +kernel : (Money.toBinary64 ⟨9007199254740990⟩).toRat?.isSome)
    obtain ⟨_, hmoney, _⟩ := only_finer_input_altered _ r hr
    have hreads := hmoney _ hread
    exact ⟨r, hr, hread, (hreads.unaltered_iff (by decide)).mpr ⟨_, by decide, hr⟩⟩
  · have hread : Quantity.ofBinary64 (Quantity.toBinary64 ⟨115⟩) = .ok ⟨115⟩ := by
      decide +kernel
    obtain ⟨r, hr⟩ := Option.isSome_iff_exists.mp
      (by decide +kernel : (Quantity.toBinary64 ⟨115⟩).toRat?.isSome)
    obtain ⟨hquantity, _⟩ := only_finer_input_altered _ r hr
    refine ⟨r, hr, hread, ?_⟩
    have hnear := (hquantity _ hread).near
    have hsize := abs_sub_abs_le_abs_sub r (115 / 100)
    rw [abs_of_pos (by norm_num : (0 : ℚ) < 115 / 100)] at hsize
    push_cast at hnear
    linarith
  · obtain ⟨_, _, hreads, _⟩ := only_finer_input_altered
      (.ofDecimal false 2500000037252902984619140625 (-28)) _
      (Binary64.toRat?_eq_div (n := (2 ^ 26 + 1) * 2 ^ 1046) (p := 2 ^ 26 + 1) (q := 2 ^ 28)
        (by decide +kernel) (by decide) (by decide +kernel))
    refine (hreads 25 ?_).1
    norm_num
  · obtain ⟨_, _, _, hrefuses⟩ := only_finer_input_altered (.ofDecimal false 125 (-3)) _
      (Binary64.toRat?_eq_div (n := 2 ^ 1071) (p := 1) (q := 8) (by decide +kernel) (by decide)
        (by decide +kernel))
    obtain ⟨defect, -, hdefect⟩ := hrefuses fun n => by
      rw [abs_of_pos (by norm_num), lt_abs]
      push_cast
      rcases (by omega : n ≤ 12 ∨ 13 ≤ n) with hn | hn
      · left
        have hn : (n : ℚ) ≤ 12 := by exact_mod_cast hn
        linarith
      · right
        have hn : (13 : ℚ) ≤ n := by exact_mod_cast hn
        linarith
    exact ⟨defect, hdefect⟩

/-- Input that is finer than a hundredth is altered. -/
theorem finer_input_altered :
    Quantity.ofBinary64 (.ofDecimal false 1000000001 (-9)) = .ok ⟨100⟩ ∧
    Money.ofBinary64 (.ofDecimal false 1000000001 (-9)) = .ok ⟨100⟩ ∧
    (Quantity.toBinary64 ⟨100⟩).toRat? ≠ (Binary64.ofDecimal false 1000000001 (-9)).toRat? := by
  refine ⟨by decide +kernel, by decide +kernel, fun h => ?_⟩
  exact absurd (Binary64.units?_eq_of_toRat?_eq h) (by decide +kernel)

end BuyingClub
