import BuyingClub.Amount
import BuyingClub.Proofs.Binary64

/-!
# Hundredths as doubles

A double that stands for a ratio is within half a unit of its last place. That tells how far
hundredths come through unchanged when they are written as a double and read again: two roundings
lie between, and what is left of them is compared with a tolerance that does not grow with the
number.
-/

namespace BuyingClub

/-! ## Signs -/

def signed (negative : Bool) (n : Nat) : Int := if negative then -(n : Int) else n

@[simp] theorem natAbs_signed (negative : Bool) (n : Nat) : (signed negative n).natAbs = n := by
  unfold signed
  split <;> omega

theorem signed_natAbs (n : Int) : signed (decide (n < 0)) n.natAbs = n := by
  unfold signed
  split <;> rename_i h <;> simp only [decide_eq_true_eq] at h <;> omega

@[simp] theorem signed_zero (negative : Bool) : signed negative 0 = 0 := by
  cases negative <;> rfl

theorem decide_signed_neg {negative : Bool} {n : Nat} (h : 0 < n) :
    decide (signed negative n < 0) = negative := by
  unfold signed
  cases negative <;> simp
  omega

theorem signed_eq_signed_iff {negative negative' : Bool} {m n : Nat} :
    signed negative m = signed negative' n ↔ m = n ∧ (negative = negative' ∨ m = 0) := by
  cases negative <;> cases negative' <;> simp [signed] <;> omega

/-! ## Writing and reading -/

namespace Hundredths

open Magnitude

variable {v : Binary64} {n : Int} {m : Nat} {x y : Magnitude}

theorem two_pow_split {i j k : Nat} (h : i + j = k) : 2 ^ k = 2 ^ i * 2 ^ j := by
  rw [← h, Nat.pow_add]

theorem nearestWhole_eq {m : Nat} (above : 2 * (m * one) ≤ 2 * y.units + one)
    (below : 2 * y.units < 2 * (m * one) + one) : nearestWhole y = m := by
  unfold nearestWhole
  generalize one = u at *
  have hnext : (m + 1) * (2 * u) = 2 * (m * u) + 2 * u := by ring
  apply Nat.div_eq_of_lt_le
  · rw [Nat.mul_left_comm]
    exact above
  · rw [hnext]
    omega

theorem distanceToWhole_le_iff {m t : Nat} (h : nearestWhole y = m) :
    distanceToWhole y ≤ t ↔ m * one ≤ y.units + t ∧ y.units ≤ m * one + t := by
  unfold distanceToWhole
  rw [h]
  generalize m * one = whole
  dsimp only
  split <;> omega

theorem ofBinary64_of_hundredfold {negative : Bool}
    (hundredfold : ofRatio? (x.units * 100) 1 = some y) (room : y.units ≤ largest) :
    ofBinary64 (.finite negative x) =
      if distanceToWhole y ≤ tolerance then
        .ok (signed negative (nearestWhole y))
      else .error (.tooFine (.finite negative x)) := by
  unfold ofBinary64
  dsimp only
  rw [hundredfold]
  dsimp only
  rw [if_neg (Nat.not_lt.mpr room)]
  by_cases h : distanceToWhole y ≤ tolerance
  · rw [if_pos h, if_neg (Nat.not_lt.mpr h)]
    rfl
  · rw [if_neg h, if_pos (Nat.lt_of_not_le h)]

/-- The whole number `m` is within the tolerance of `y`, the hundredfold of `x`. -/
structure IsHundredfold (x y : Magnitude) (m : Nat) : Prop where
  rounded : ofRatio? (x.units * 100) 1 = some y
  room : y.units ≤ largest
  below : m * one ≤ y.units + tolerance
  above : y.units ≤ m * one + tolerance

theorem tolerance_le : 1000000 * tolerance ≤ one := by
  decide +kernel

theorem IsHundredfold.nearestWhole_eq (h : IsHundredfold x y m) : nearestWhole y = m := by
  have htolerance := tolerance_le
  have hpos := Magnitude.one_pos
  have hbelow := h.below
  have habove := h.above
  apply Hundredths.nearestWhole_eq <;> omega

theorem ofBinary64_eq_ok_iff : ofBinary64 v = .ok n ↔
    ∃ negative x y m, v = .finite negative x ∧ IsHundredfold x y m ∧ n = signed negative m := by
  constructor
  · intro h
    unfold ofBinary64 at h
    split at h
    · rename_i negative x
      split at h
      · cases h
      · rename_i y hy
        split at h
        · cases h
        · rename_i hroom
          split at h
          · cases h
          · rename_i hdistance
            cases h
            obtain ⟨hbelow, habove⟩ :=
              (distanceToWhole_le_iff rfl).mp (Nat.le_of_not_lt hdistance)
            exact ⟨negative, x, y, nearestWhole y, rfl,
              ⟨hy, Nat.le_of_not_lt hroom, hbelow, habove⟩, rfl⟩
    · cases h
  · rintro ⟨negative, x, y, m, rfl, h, rfl⟩
    have hdistance := (distanceToWhole_le_iff h.nearestWhole_eq).mpr ⟨h.below, h.above⟩
    rw [ofBinary64_of_hundredfold h.rounded h.room, if_pos hdistance, h.nearestWhole_eq]

theorem toBinary64_eq_ofRatio (hn : n.natAbs ≤ 2 ^ 53) :
    toBinary64 n = .ofRatio (decide (n < 0)) (n.natAbs * one) 100 := by
  obtain ⟨whole, hwhole, hunits⟩ := Binary64.ofInt_eq_finite hn
  unfold toBinary64
  rw [hwhole, ← hunits]
  rfl

theorem toBinary64_near {j k : Nat} (hn : n.natAbs ≤ 2 ^ 53)
    (hj : n.natAbs * one < 100 * 2 ^ (j + 53)) (hk : n.natAbs * one + 50 * 2 ^ j < 2 ^ (k + 53))
    (hjk : j < 2045 ∧ k < 2045) :
    ∃ x y e, toBinary64 n = .finite (decide (n < 0)) x ∧ ofRatio? (x.units * 100) 1 = some y ∧
      e ≤ k ∧ 2 ^ e ∣ y.units ∧
      2 * (n.natAbs * one) ≤ 2 * y.units + (2 ^ e + 100 * 2 ^ j) ∧
      2 * y.units ≤ 2 * (n.natAbs * one) + (2 ^ e + 100 * 2 ^ j) := by
  obtain ⟨x, i, hx, hi, hxnear⟩ := ofRatio?_near (by decide) hj hjk.1
  have habove := hxnear.above
  have hbelow := hxnear.below
  have hpow : 2 ^ i ≤ 2 ^ j := Nat.pow_le_pow_right (by decide) hi
  obtain ⟨y, e, hy, he, hynear⟩ := ofRatio?_near (n := x.units * 100) Nat.one_pos
    (by omega : x.units * 100 < 1 * 2 ^ (k + 53)) hjk.2
  have habove' := hynear.above
  have hbelow' := hynear.below
  refine ⟨x, y, e, ?_, hy, he, hynear.dvd, by omega, by omega⟩
  rw [toBinary64_eq_ofRatio hn, Binary64.ofRatio_eq_finite hx]

theorem le_tolerance : 67 * 2 ^ 1048 ≤ tolerance := by
  decide +kernel

/-- Amounts below `134217728.00` come through unchanged. From `2 ^ 27` on, the two roundings can add
up to more than a millionth. -/
theorem ofBinary64_toBinary64 (h : n.natAbs < 13421772800) : ofBinary64 (toBinary64 n) = .ok n := by
  -- A name for the exponent keeps the powers from being computed.
  obtain ⟨j, hj⟩ : ∃ j, 1048 = j := ⟨_, rfl⟩
  have htolerance := le_tolerance
  rw [hj] at htolerance
  have hone : one = 2 ^ 26 * 2 ^ j := two_pow_split (by omega)
  have hpos := Nat.two_pow_pos j
  have hlt : n.natAbs * one < 13421772800 * one := Nat.mul_lt_mul_of_pos_right h (by omega)
  have hroom : n.natAbs * one < 100 * 2 ^ (j + 53) := by
    rw [Nat.pow_add]
    omega
  have hroom' : n.natAbs * one + 50 * 2 ^ j < 2 ^ (j + 7 + 53) := by
    rw [Nat.add_assoc, Nat.pow_add]
    omega
  obtain ⟨x, y, e, hwrites, hundredfold, he, hdvd, habove, hbelow⟩ :=
    toBinary64_near (by omega) hroom hroom' (by omega)
  have hwhole : 2 ^ e ∣ n.natAbs * one := two_pow_dvd_mul (by omega) _
  have hnear : n.natAbs * one ≤ y.units + 67 * 2 ^ j ∧ y.units ≤ n.natAbs * one + 67 * 2 ^ j := by
    rcases (by omega : e ≤ j + 5 ∨ e = j + 6 ∨ e = j + 7) with he | rfl | rfl
    · have hpow : 2 ^ e ≤ 2 ^ (j + 5) := Nat.pow_le_pow_right (by decide) he
      rw [Nat.pow_add] at hpow
      omega
    · -- Twice a last place is too far, so it is one at most.
      have hleft := le_add_of_dvd (k := 1) hwhole hdvd (by rw [Nat.pow_add] at *; omega)
      have hright := le_add_of_dvd (k := 1) hdvd hwhole (by rw [Nat.pow_add] at *; omega)
      rw [Nat.pow_add] at hleft hright
      omega
    · -- A whole last place is too far, so there is no difference.
      rw [Nat.pow_add] at habove hbelow
      have hexact := eq_of_dvd_of_near hdvd hwhole (by rw [Nat.pow_add]; omega)
        (by rw [Nat.pow_add]; omega)
      omega
  have hlargest : y.units ≤ largest := by
    unfold largest
    omega
  rw [hwrites]
  exact ofBinary64_eq_ok_iff.mpr ⟨_, x, y, n.natAbs, rfl,
    ⟨hundredfold, hlargest, by omega, by omega⟩, (signed_natAbs n).symm⟩

theorem ofBinary64_toBinary64_or (h : n.natAbs < 2 ^ 40) :
    ofBinary64 (toBinary64 n) = .ok n ∨
      ofBinary64 (toBinary64 n) = .error (.tooFine (toBinary64 n)) := by
  obtain ⟨j, hj⟩ : ∃ j, 1055 = j := ⟨_, rfl⟩
  have hone : one = 2 ^ 19 * 2 ^ j := two_pow_split (by omega)
  have hpos := Nat.two_pow_pos j
  have hlt : n.natAbs * one < 2 ^ 40 * one := Nat.mul_lt_mul_of_pos_right h (by omega)
  have hroom : n.natAbs * one < 100 * 2 ^ (j + 53) := by
    rw [Nat.pow_add]
    omega
  have hroom' : n.natAbs * one + 50 * 2 ^ j < 2 ^ (j + 7 + 53) := by
    rw [Nat.add_assoc, Nat.pow_add]
    omega
  obtain ⟨x, y, e, hwrites, hundredfold, he, _, habove, hbelow⟩ :=
    toBinary64_near (by omega) hroom hroom' (by omega)
  have hpow : 2 ^ e ≤ 2 ^ (j + 7) := Nat.pow_le_pow_right (by decide) he
  rw [Nat.pow_add] at hpow
  have hn : nearestWhole y = n.natAbs := nearestWhole_eq (by omega) (by omega)
  have hlargest : y.units ≤ largest := by
    unfold largest
    omega
  rw [hwrites, ofBinary64_of_hundredfold hundredfold hlargest, hn, signed_natAbs]
  split
  · exact .inl rfl
  · exact .inr rfl

/-- The first amount that does not come through. -/
example : ofBinary64 (toBinary64 13421772802) = .error (.tooFine (toBinary64 13421772802)) := by
  decide +kernel

end Hundredths

end BuyingClub
