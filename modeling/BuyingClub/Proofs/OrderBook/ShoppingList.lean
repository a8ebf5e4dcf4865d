import BuyingClub.OrderBook.ShoppingList
import BuyingClub.Proofs.OrderBook.Demand
import BuyingClub.Proofs.OrderBook.Products

/-!
# The shopping list that is drawn up

It has one line per product, for its committed total, and nothing on it is bought yet.
-/

namespace BuyingClub

/-! ## Products of the totals -/

theorem map_fst_addTotal (product : ProductId) (amount : Quantity)
    (totals : List (ProductId × Quantity)) :
    (addTotal product amount totals).map (·.1) = insertAscending product (totals.map (·.1)) := by
  induction totals with
  | nil => rfl
  | cons entry rest ih =>
    unfold addTotal
    rw [List.map_cons]
    unfold insertAscending
    split
    · rfl
    · split
      · rfl
      · rw [List.map_cons, ih]

theorem map_fst_foldl_addTotal (bids : List Bid) (totals : List (ProductId × Quantity)) :
    (bids.foldl (fun totals b => addTotal b.product b.committedQuantity totals) totals).map (·.1) =
      bids.foldl (fun known b => insertAscending b.product known) (totals.map (·.1)) := by
  induction bids generalizing totals with
  | nil => rfl
  | cons b rest ih => rw [List.foldl_cons, List.foldl_cons, ih, map_fst_addTotal]

namespace OrderBook

theorem map_fst_demands (book : OrderBook) : book.demands.map (·.1) = book.products :=
  map_fst_foldl_addTotal book.bids []

theorem nodup_demands (book : OrderBook) : (book.demands.map (·.1)).Nodup := by
  rw [map_fst_demands]
  exact book.nodup_products

theorem length_demands_le (book : OrderBook) : book.demands.length ≤ book.bids.length := by
  have hlength : book.products.length ≤ (book.bids.map (·.product)).length :=
    length_products_le fun b hb => List.mem_map_of_mem hb
  rw [← map_fst_demands, List.length_map, List.length_map] at hlength
  exact hlength

end OrderBook

/-! ## Totals in one pass -/

/-- What a list of totals says of a product, in hundredths. -/
def listedTotal (totals : List (ProductId × Quantity)) (product : ProductId) : Int :=
  (totals.map fun entry => if entry.1 = product then entry.2.hundredths else 0).sum

theorem listedTotal_cons (key product : ProductId) (total : Quantity)
    (rest : List (ProductId × Quantity)) :
    listedTotal ((key, total) :: rest) product =
      (if key = product then total.hundredths else 0) + listedTotal rest product := by
  unfold listedTotal
  rw [List.map_cons, List.sum_cons]

theorem listedTotal_addTotal (added product : ProductId) (amount : Quantity)
    (totals : List (ProductId × Quantity)) :
    listedTotal (addTotal added amount totals) product =
      listedTotal totals product + if added = product then amount.hundredths else 0 := by
  induction totals with
  | nil => simp [addTotal, listedTotal]
  | cons entry rest ih =>
    obtain ⟨key, total⟩ := entry
    unfold addTotal
    split
    · rw [listedTotal_cons]
      omega
    · split
      · rename_i hadded
        subst hadded
        rw [listedTotal_cons, listedTotal_cons, Quantity.hundredths_add]
        split <;> omega
      · rw [listedTotal_cons, listedTotal_cons, ih]
        omega

theorem Bid.towards_product (b : Bid) : b.towards b.product = b.committedQuantity.hundredths := by
  unfold Bid.towards Bid.countsFor Bid.committedQuantity
  cases b.isCommitted <;> simp

theorem listedTotal_addTotal_bid (b : Bid) (product : ProductId)
    (totals : List (ProductId × Quantity)) :
    listedTotal (addTotal b.product b.committedQuantity totals) product =
      listedTotal totals product + b.towards product := by
  rw [listedTotal_addTotal, ← b.towards_product]
  split
  · rename_i hproduct
    rw [hproduct]
  · rename_i hproduct
    have hcounts : b.countsFor product = false := by simp [Bid.countsFor, hproduct]
    rw [Bid.towards_of_countsFor_eq_false hcounts]

theorem listedTotal_foldl (bids : List Bid) (product : ProductId)
    (totals : List (ProductId × Quantity)) :
    listedTotal (bids.foldl (fun totals b => addTotal b.product b.committedQuantity totals) totals)
        product = listedTotal totals product + committedTotal bids product := by
  induction bids generalizing totals with
  | nil => simp [committedTotal]
  | cons b rest ih =>
    have hsum : committedTotal (b :: rest) product =
        b.towards product + committedTotal rest product := rfl
    rw [List.foldl_cons, ih, listedTotal_addTotal_bid, hsum]
    omega

theorem listedTotal_of_mem {totals : List (ProductId × Quantity)} {product : ProductId}
    {total : Quantity} (distinct : (totals.map (·.1)).Nodup) (h : (product, total) ∈ totals) :
    listedTotal totals product = total.hundredths := by
  induction totals with
  | nil => cases h
  | cons entry rest ih =>
    obtain ⟨key, amount⟩ := entry
    rw [List.map_cons, List.nodup_cons] at distinct
    obtain ⟨hkey, hrest⟩ := distinct
    rw [listedTotal_cons]
    rcases List.mem_cons.mp h with heq | h
    · cases heq
      have hzero : listedTotal rest product = 0 := by
        unfold listedTotal
        refine List.sum_eq_zero fun n hn => ?_
        obtain ⟨other, hother, rfl⟩ := List.mem_map.mp hn
        exact if_neg fun heq => hkey (List.mem_map.mpr ⟨other, hother, heq⟩)
      rw [if_pos rfl, hzero, Int.add_zero]
    · have hne : key ≠ product := by
        rintro rfl
        exact hkey (List.mem_map.mpr ⟨_, h, rfl⟩)
      rw [if_neg hne, ih hrest h, Int.zero_add]

theorem OrderBook.demand_of_mem_demands {book : OrderBook} {product : ProductId} {total : Quantity}
    (h : (product, total) ∈ book.demands) : book.demand product = total := by
  have hlisted := listedTotal_of_mem book.nodup_demands h
  unfold OrderBook.demands at hlisted
  rw [listedTotal_foldl] at hlisted
  ext
  rw [hundredths_demand, ← hlisted]
  exact (Int.zero_add _).symm

theorem OrderBook.demands_eq_map_products (book : OrderBook) :
    book.demands = book.products.map fun product => (product, book.demand product) := by
  rw [← map_fst_demands, List.map_map]
  refine ((List.map_congr_left fun entry hentry => ?_).trans (List.map_id _)).symm
  exact Prod.ext rfl (demand_of_mem_demands hentry)

theorem OrderBook.demand_eq_zero {book : OrderBook} {product : ProductId}
    (h : product ∉ book.products) : book.demand product = 0 := by
  have hnone : book.bids.filter (·.countsFor product) = [] := by
    refine List.filter_eq_nil_iff.mpr fun b hb hcounts => h ?_
    rw [Bid.countsFor, Bool.and_eq_true, decide_eq_true_iff] at hcounts
    rw [← hcounts.1]
    exact product_mem_products hb
  unfold demand
  rw [hnone]
  rfl

/-! ## Lines -/

theorem map_product_itemsToBuy (run : RunId) (totals : List (ProductId × Quantity))
    (counters : Counters) :
    (itemsToBuy run totals counters).1.map (·.product) = totals.map (·.1) := by
  induction totals generalizing counters with
  | nil => rfl
  | cons entry rest ih =>
    obtain ⟨product, total⟩ := entry
    unfold itemsToBuy
    rw [List.map_cons, List.map_cons, ← ih counters.drawItem.2]
    rfl

theorem eq_toBuy_of_mem_itemsToBuy {run : RunId} {totals : List (ProductId × Quantity)}
    {counters : Counters} {item : ShoppingItem} (h : item ∈ (itemsToBuy run totals counters).1) :
    ∃ id, ∃ entry ∈ totals, item = .toBuy id run entry.1 entry.2 := by
  induction totals generalizing counters with
  | nil => cases h
  | cons entry rest ih =>
    unfold itemsToBuy at h
    rcases List.mem_cons.mp h with rfl | h
    · exact ⟨_, entry, List.mem_cons_self, rfl⟩
    · obtain ⟨id, other, hother, rfl⟩ := ih h
      exact ⟨id, other, List.mem_cons_of_mem _ hother, rfl⟩

theorem mem_of_mem_itemsToBuy {run : RunId} {totals : List (ProductId × Quantity)}
    {counters : Counters} {item : ShoppingItem} (h : item ∈ (itemsToBuy run totals counters).1) :
    (item.product, item.requestedQuantity) ∈ totals := by
  obtain ⟨_, entry, hentry, rfl⟩ := eq_toBuy_of_mem_itemsToBuy h
  exact hentry

theorem isPurchased_of_mem_itemsToBuy {run : RunId} {totals : List (ProductId × Quantity)}
    {counters : Counters} {item : ShoppingItem} (h : item ∈ (itemsToBuy run totals counters).1) :
    item.isPurchased = false := by
  obtain ⟨_, _, _, rfl⟩ := eq_toBuy_of_mem_itemsToBuy h
  rfl

end BuyingClub
