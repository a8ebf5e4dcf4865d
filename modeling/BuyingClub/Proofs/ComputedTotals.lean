import BuyingClub.Proofs.Checked.Rounding
import BuyingClub.Proofs.Command.Items

/-!
# Computed totals

The total of a purchase and the largest total that is allowed are both rounded, each for itself. As
rounding goes along with the order, a purchase within its limits is never refused for a total that
was computed.
-/

namespace BuyingClub

theorem Hundredths.fits_of_ofBinary64 {value : Binary64} {n : Int} (h : ofBinary64 value = .ok n)
    (hn : 0 ≤ n) : FitsAmount n := by
  have hle := ofBinary64_le h
  unfold bound at hle
  unfold FitsAmount
  omega

namespace Money

variable {price total : Money} {quantity : Quantity}

theorem mulDiv?_of_times (hprice : FitsAmount price.cents)
    (hquantity : FitsAmount quantity.hundredths) (h : price.times quantity = .ok total) :
    mulDiv? price.cents quantity.hundredths 100 = some total.cents := by
  obtain ⟨hfits, htotal⟩ := times_eq_ok_iff.mp h
  have hfactors : ¬(price.cents = -2 ^ 63 ∧ quantity.hundredths = -2 ^ 63) := by
    rintro ⟨hleast, hleast'⟩
    rw [htotal, hleast, hleast'] at hfits
    exact absurd hfits (by decide)
  rw [htotal]
  exact mulDiv?_eq hprice hquantity hfactors (by decide) (by decide)

theorem isNearestAway_of_times (h : price.times quantity = .ok total) :
    IsNearestAway (price.cents * quantity.hundredths / 100) total.cents := by
  have hnearest := roundDiv_isNearestAway (price.cents * quantity.hundredths) (d := 100) (by decide)
  rw [(times_eq_ok_iff.mp h).2]
  rwa [Int.cast_mul] at hnearest

end Money

/-- A quantity and a price that are read as amounts within their limits are recorded with the amount
nearest to their product, which is no more than the largest total. Both are computed in 128 bits.
What is dearer or more costs no less. -/
theorem computed_total_accepted :
    (∀ (limits : Limits) (largest : Money),
      limits.maxPrice.times limits.maxPurchaseQuantity = .ok largest →
        (FitsAmount limits.maxPrice.cents → FitsAmount limits.maxPurchaseQuantity.hundredths →
          mulDiv? limits.maxPrice.cents limits.maxPurchaseQuantity.hundredths 100 =
            some largest.cents) ∧
        ∀ (quantityValue priceValue : Binary64) (quantity : Quantity) (price : Money),
          Quantity.ofBinary64 quantityValue = .ok quantity →
          Money.ofBinary64 priceValue = .ok price →
          0 ≤ quantity → quantity ≤ limits.maxPurchaseQuantity →
          0 ≤ price → price ≤ limits.maxPrice →
            ∃ total,
              Draft.readPurchase limits quantityValue priceValue none =
                .ok (quantity, price, total) ∧
              IsNearestAway (price.cents * quantity.hundredths / 100) total.cents ∧
              total ≤ largest ∧
              mulDiv? price.cents quantity.hundredths 100 = some total.cents) ∧
      ∀ (price dearer most : Money) (quantity more : Quantity), 0 ≤ price → price ≤ dearer →
        0 ≤ quantity → quantity ≤ more → dearer.times more = .ok most →
          ∃ cost, price.times quantity = .ok cost ∧ cost ≤ most := by
  constructor
  · intro limits largest hlargest
    refine ⟨fun hprice hquantity => Money.mulDiv?_of_times hprice hquantity hlargest, ?_⟩
    intro quantityValue priceValue quantity price reads readsPrice hquantity most hprice highest
    obtain ⟨total, costs, hnonneg, hle⟩ := Money.times_le hprice hquantity highest most hlargest
    obtain ⟨_, hhundredths, rfl⟩ := map_eq_ok_iff.mp reads
    obtain ⟨_, hcents, rfl⟩ := map_eq_ok_iff.mp readsPrice
    refine ⟨total, Draft.readPurchase_eq_ok_iff.mpr ⟨reads, readsPrice, costs, ?_⟩,
      Money.isNearestAway_of_times costs, hle, Money.mulDiv?_of_times ?_ ?_ costs⟩
    · exact ⟨⟨hquantity, most⟩, ⟨hprice, highest⟩, largest, hlargest, hnonneg, hle⟩
    · exact Hundredths.fits_of_ofBinary64 hcents hprice
    · exact Hundredths.fits_of_ofBinary64 hhundredths hquantity
  · intro price dearer most quantity more hprice cheaper hquantity fewer hmost
    obtain ⟨cost, hcost, _, hle⟩ := Money.times_le hprice hquantity cheaper fewer hmost
    exact ⟨cost, hcost, hle⟩

/-- Under the default limits, the dearest purchase costs the largest total, and half a cent is
rounded up to a cent. -/
theorem computed_total_accepted_at_cap :
    (∃ total, Draft.readPurchase .default (Hundredths.toBinary64 9999999)
        (Hundredths.toBinary64 9999999) none = .ok (⟨9999999⟩, ⟨9999999⟩, total) ∧
      total.cents = 999999800000) ∧
    ∃ total, Draft.readPurchase .default (Hundredths.toBinary64 1) (Hundredths.toBinary64 50) none =
        .ok (⟨1⟩, ⟨50⟩, total) ∧ total.cents = 1 := by
  obtain ⟨haccepts, _⟩ := computed_total_accepted
  obtain ⟨_, haccepts⟩ := haccepts .default ⟨999999800000⟩ (by decide +kernel)
  obtain ⟨largest, reads, _, _, hlargest⟩ := haccepts (Hundredths.toBinary64 9999999)
    (Hundredths.toBinary64 9999999) ⟨9999999⟩ ⟨9999999⟩ (by decide +kernel) (by decide +kernel)
    (by decide) (by decide) (by decide) (by decide)
  obtain ⟨cent, readsCent, _, _, hcent⟩ := haccepts (Hundredths.toBinary64 1)
    (Hundredths.toBinary64 50) ⟨1⟩ ⟨50⟩ (by decide +kernel) (by decide +kernel) (by decide)
    (by decide) (by decide) (by decide)
  refine ⟨⟨largest, reads, ?_⟩, cent, readsCent, ?_⟩
  · exact Option.some.inj (hlargest.symm.trans (by decide))
  · exact Option.some.inj (hcent.symm.trans (by decide))

end BuyingClub
