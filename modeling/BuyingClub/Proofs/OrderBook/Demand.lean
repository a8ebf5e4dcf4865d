import BuyingClub.OrderBook.Handout
import BuyingClub.Proofs.Amount
import BuyingClub.Proofs.Updates

/-!
# Committed totals

The committed total of a product as a sum over all bids, and how single changes move it.
-/

namespace BuyingClub

/-- What a bid adds to the committed total of a product, in hundredths. -/
def Bid.towards (product : ProductId) (b : Bid) : Int :=
  if b.countsFor product then b.quantity.hundredths else 0

/-- The committed total of a product in a list of bids, in hundredths. -/
def committedTotal (bids : List Bid) (product : ProductId) : Int :=
  (bids.map (·.towards product)).sum

theorem Bid.towards_nonneg {b : Bid} {product : ProductId} (h : 0 ≤ b.quantity) :
    0 ≤ b.towards product := by
  unfold towards
  split
  · exact h
  · exact Int.le_refl 0

theorem Bid.towards_of_countsFor {b : Bid} {product : ProductId} (h : b.countsFor product = true) :
    b.towards product = b.quantity.hundredths := by
  simp [towards, h]

theorem Bid.towards_of_countsFor_eq_false {b : Bid} {product : ProductId}
    (h : b.countsFor product = false) : b.towards product = 0 := by
  simp [towards, h]

theorem OrderBook.hundredths_demand (book : OrderBook) (product : ProductId) :
    (book.demand product).hundredths = committedTotal book.bids product := by
  unfold demand
  rw [Quantity.hundredths_sum, List.map_map]
  exact sum_filter (·.quantity.hundredths) (·.countsFor product) book.bids

theorem committedTotal_append (bids more : List Bid) (product : ProductId) :
    committedTotal (bids ++ more) product =
      committedTotal bids product + committedTotal more product := by
  unfold committedTotal
  rw [List.map_append, List.sum_append]

theorem committedTotal_nonneg {bids : List Bid} (h : ∀ b ∈ bids, 0 ≤ b.quantity)
    (product : ProductId) : 0 ≤ committedTotal bids product := by
  unfold committedTotal
  refine List.sum_nonneg fun n hn => ?_
  obtain ⟨b, hb, rfl⟩ := List.mem_map.mp hn
  exact Bid.towards_nonneg (h b hb)

theorem le_committedTotal {bids : List Bid} {product : ProductId} {b : Bid}
    (nonneg : ∀ b ∈ bids, 0 ≤ b.quantity) (hb : b ∈ bids) (hcounts : b.countsFor product = true) :
    b.quantity.hundredths ≤ committedTotal bids product := by
  rw [← Bid.towards_of_countsFor hcounts]
  apply List.single_le_sum
  · intro n hn
    obtain ⟨c, hc, rfl⟩ := List.mem_map.mp hn
    exact Bid.towards_nonneg (nonneg c hc)
  · exact List.mem_map_of_mem hb

theorem committedTotal_congr {bids after : List Bid} {product : ProductId}
    (same : after.filter (·.countsFor product) = bids.filter (·.countsFor product)) :
    committedTotal after product = committedTotal bids product := by
  have hfilter (bids : List Bid) : committedTotal bids product =
      ((bids.filter (·.countsFor product)).map (·.quantity.hundredths)).sum :=
    (sum_filter (fun b : Bid => b.quantity.hundredths) (·.countsFor product) bids).symm
  rw [hfilter, same, ← hfilter]

@[simp] theorem committedTotal_filter (bids : List Bid) (product : ProductId) :
    committedTotal (bids.filter (·.countsFor product)) product = committedTotal bids product :=
  committedTotal_congr (by simp only [List.filter_filter, Bool.and_self])

theorem exists_countsFor_of_pos {bids : List Bid} {product : ProductId}
    (h : 0 < committedTotal bids product) : bids.any (·.countsFor product) = true := by
  by_contra hnone
  rw [Bool.not_eq_true, List.any_eq_false] at hnone
  have hzero : committedTotal bids product = 0 := by
    unfold committedTotal
    refine List.sum_eq_zero fun n hn => ?_
    obtain ⟨b, hb, rfl⟩ := List.mem_map.mp hn
    exact Bid.towards_of_countsFor_eq_false (Bool.eq_false_of_not_eq_true (hnone b hb))
  omega

end BuyingClub
