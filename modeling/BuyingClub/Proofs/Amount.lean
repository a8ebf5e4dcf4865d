import BuyingClub.Proofs.Hundredths
import BuyingClub.Proofs.Results
import BuyingClub.Proofs.Rounding

/-!
# Bounds of amounts

What is read as a quantity is at most `2⁶²` hundredths, and a share of it is at most as much.
-/

namespace BuyingClub

/-! ## Reading -/

namespace Hundredths

/-- The largest number of hundredths that is read from a decimal number. -/
def bound : Int := 2 ^ 62

theorem ofBinary64_le {value : Binary64} {n : Int} (h : ofBinary64 value = .ok n) : n ≤ bound := by
  obtain ⟨negative, x, y, m, -, hm, rfl⟩ := ofBinary64_eq_ok_iff.mp h
  have hroom := hm.room
  have hbelow := hm.below
  have htolerance := tolerance_le
  have hpos := Magnitude.one_pos
  have hle : m ≤ 2 ^ 62 := by
    apply Nat.le_of_lt_succ
    apply Nat.lt_of_mul_lt_mul_right (a := Magnitude.one)
    unfold largest at hroom
    rw [Nat.succ_mul]
    omega
  unfold signed bound
  split <;> omega

end Hundredths

/-! ## Quantities -/

namespace Quantity

@[simp] theorem hundredths_sum (qs : List Quantity) :
    qs.sum.hundredths = (qs.map (·.hundredths)).sum := by
  induction qs with
  | nil => rfl
  | cons q rest ih => simp [ih]

theorem ofBinary64_le {value : Binary64} {q : Quantity} (h : ofBinary64 value = .ok q) :
    q.hundredths ≤ Hundredths.bound := by
  obtain ⟨n, hn, rfl⟩ := map_eq_ok_iff.mp h
  exact Hundredths.ofBinary64_le hn

theorem hundredths_min (a b : Quantity) :
    (min a b).hundredths = min a.hundredths b.hundredths := by
  have hdef : min a b = if a ≤ b then a else b := rfl
  rw [hdef, apply_ite hundredths, Int.min_def]
  rfl

theorem hundredths_max (a b : Quantity) :
    (max a b).hundredths = max a.hundredths b.hundredths := by
  have hdef : max a b = if a ≤ b then b else a := rfl
  rw [hdef, apply_ite hundredths, Int.max_def]
  rfl

theorem min_le_right (a b : Quantity) : min a b ≤ b := by
  rw [le_def, hundredths_min]
  exact Int.min_le_right ..

theorem le_min {a b c : Quantity} (hb : c ≤ b) (ha : c ≤ a) : c ≤ min a b := by
  rw [le_def, hundredths_min]
  exact Int.le_min.mpr ⟨ha, hb⟩

theorem hundredths_scale {q part whole : Quantity} (hq : 0 ≤ q) (hfits : FitsAmount q.hundredths)
    (hpart : 0 ≤ part) (hle : part ≤ whole) (hwhole : 0 < whole) :
    (q.scale part whole).hundredths =
        roundDiv (q.hundredths * part.hundredths) whole.hundredths ∧
      0 ≤ q.scale part whole ∧ q.scale part whole ≤ q := by
  simp only [le_def, lt_def, hundredths_zero] at hq hpart hle hwhole ⊢
  have hne : whole ≠ 0 := by
    rintro rfl
    simp at hwhole
  have hprod : 0 ≤ q.hundredths * part.hundredths := Int.mul_nonneg hq hpart
  have hmost : q.hundredths * part.hundredths ≤ q.hundredths * whole.hundredths :=
    Int.mul_le_mul_of_nonneg_left hle hq
  have hlow := roundDiv_nonneg hprod hwhole
  have hhigh := roundDiv_le hprod hwhole hmost
  unfold FitsAmount at hfits
  simp only [scale, hne, if_false]
  rw [Int.bmod_eq_of_le (by omega) (by omega)]
  exact ⟨rfl, hlow, hhigh⟩

theorem hundredths_scale_of_lt {q part whole : Quantity} (hq : 0 ≤ q)
    (hfits : FitsAmount q.hundredths) (hpart : 0 ≤ part) (hshort : part < whole) :
    (q.scale part whole).hundredths =
        roundDiv (q.hundredths * part.hundredths) whole.hundredths ∧
      0 ≤ q.scale part whole ∧ q.scale part whole ≤ q :=
  hundredths_scale hq hfits hpart (Int.le_of_lt hshort) (Int.lt_of_le_of_lt hpart hshort)

end Quantity

/-! ## Prices -/

namespace Money

theorem times_eq_ok_iff {price total : Money} {quantity : Quantity} :
    price.times quantity = .ok total ↔
      FitsAmount total.cents ∧ total.cents = roundDiv (price.cents * quantity.hundredths) 100 := by
  unfold times
  dsimp only
  constructor
  · intro h
    split at h <;> cases h
    rename_i hfits
    exact ⟨hfits, rfl⟩
  · rintro ⟨hfits, hcents⟩
    rw [← hcents, if_pos hfits]

theorem times_le {price highest largest : Money} {quantity most : Quantity} (hprice : 0 ≤ price)
    (hquantity : 0 ≤ quantity) (cheaper : price ≤ highest) (fewer : quantity ≤ most)
    (h : highest.times most = .ok largest) :
    ∃ total, price.times quantity = .ok total ∧ 0 ≤ total ∧ total ≤ largest := by
  obtain ⟨hfits, hlargest⟩ := times_eq_ok_iff.mp h
  rw [le_def] at hprice cheaper
  rw [Quantity.le_def] at hquantity fewer
  rw [cents_zero] at hprice
  rw [Quantity.hundredths_zero] at hquantity
  have hprod : 0 ≤ price.cents * quantity.hundredths := Int.mul_nonneg hprice hquantity
  have hle : price.cents * quantity.hundredths ≤ highest.cents * most.hundredths :=
    Int.mul_le_mul cheaper fewer hquantity (Int.le_trans hprice cheaper)
  have hlow : 0 ≤ roundDiv (price.cents * quantity.hundredths) 100 :=
    roundDiv_nonneg hprod (by omega)
  have hhigh := roundDiv_le_roundDiv (show (0 : Int) < 100 by omega) hle
  rw [← hlargest] at hhigh
  refine ⟨⟨roundDiv (price.cents * quantity.hundredths) 100⟩, times_eq_ok_iff.mpr ⟨?_, rfl⟩, hlow,
    hhigh⟩
  unfold FitsAmount at hfits ⊢
  dsimp only
  omega

end Money

end BuyingClub
