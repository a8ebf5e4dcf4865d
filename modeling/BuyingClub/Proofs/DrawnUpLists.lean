import BuyingClub.Proofs.Checked.Totals
import BuyingClub.Proofs.OrderBook.InPlace
import BuyingClub.Proofs.OrderBook.Rows

/-!
# Lists drawn up from totals

The totals of one pass over the bids are the committed totals of the products with bids, and the
list that is drawn up has a line for each of those that is positive.
-/

namespace BuyingClub

/-! ## Lines -/

section

variable (run : RunId) (totals : List (ProductId × Quantity)) (counters : Counters)

theorem length_itemsToBuy : (itemsToBuy run totals counters).1.length = totals.length := by
  have hlength := congrArg List.length (map_product_itemsToBuy run totals counters)
  rwa [List.length_map, List.length_map] at hlength

theorem map_id_itemsToBuy :
    (itemsToBuy run totals counters).1.map (·.id) =
      drawn .item counters.item (itemsToBuy run totals counters).1.length := by
  have hrows := congrArg (List.map (·.1)) (itemsToBuy_enters run totals counters).1
  rw [List.map_map, List.map_map] at hrows
  rw [length_itemsToBuy]
  exact hrows.trans (List.map_id _)

end

namespace OrderBook

/-- The list of a book with these bids, with numbers from `next` on. -/
structure IsDrawnUp (book : OrderBook) (next : Nat) (items : List ShoppingItem) : Prop where
  productsAscend : (items.map (·.product)).Pairwise (· < ·)
  /-- Unless the numbers start over among them. -/
  idsAscend : next + items.length ≤ UInt64.size → (items.map (·.id)).Pairwise (· < ·)
  mem_iff : ∀ product, product ∈ items.map (·.product) ↔ 0 < book.demand product
  /-- Nothing is bought of any line. -/
  each : ∀ item ∈ items, item =
    .toBuy item.id book.run.id item.product (book.demand item.product)

theorem mem_products_of_demand_pos {book : OrderBook} {product : ProductId}
    (h : 0 < book.demand product) : product ∈ book.products := by
  by_contra hnone
  rw [demand_eq_zero hnone] at h
  exact absurd h (Int.lt_irrefl 0)

theorem map_product_drawUp (book : OrderBook) (counters : Counters) :
    (itemsToBuy book.run.id (book.demands.filter fun entry => 0 < entry.2) counters).1.map
        (·.product) =
      book.products.filter fun product => 0 < book.demand product := by
  rw [map_product_itemsToBuy, demands_eq_map_products, List.filter_map, List.map_map]
  exact List.map_id _

theorem isDrawnUp_itemsToBuy (book : OrderBook) (counters : Counters) :
    book.IsDrawnUp counters.item
      (itemsToBuy book.run.id (book.demands.filter fun entry => 0 < entry.2) counters).1 where
  productsAscend := by
    rw [map_product_drawUp]
    exact book.products_ascend.sublist List.filter_sublist
  idsAscend fits := by
    rw [map_id_itemsToBuy]
    exact pairwise_drawn fits
  mem_iff product := by
    rw [map_product_drawUp, List.mem_filter, decide_eq_true_iff]
    exact and_iff_right_of_imp mem_products_of_demand_pos
  each item hitem := by
    obtain ⟨id, entry, hentry, rfl⟩ := eq_toBuy_of_mem_itemsToBuy hitem
    have hdemand := demand_of_mem_demands (List.mem_filter.mp hentry).1
    show _ = ShoppingItem.toBuy id book.run.id entry.1 (book.demand entry.1)
    rw [hdemand]

end OrderBook

/-- In any book, whatever the bids, their order and their quantities: the totals of one pass over
the bids are those of the products with bids, each as it is by itself, and in 64 bits the pass comes
to them if and only if each of them comes out. A list is drawn up only where there is none. It
ascends by product, and by number unless the numbers start over among its lines, and it has one line
for each product with a positive total, for that total, of which nothing is bought. Nothing else
changes, and where there is a list nothing changes at all. -/
theorem list_agrees_with_totals (book : OrderBook) (counters : Counters) :
    book.demands = book.products.map (fun product => (product, book.demand product)) ∧
    ((∀ b ∈ book.bids, FitsAmount b.quantity.hundredths) → ∀ totals,
      (book.demands? = some totals ↔
        totals = book.demands ∧ ∀ product, book.demand? product = some (book.demand product))) ∧
    (book.items = [] → ∃ items,
      let drawnUp := { book with items }
      let counters' := { counters with item := followingNumber^[items.length] counters.item }
      book.drawUpList counters = .ok (drawnUp, counters') ∧
        Edit.drawUpList.on book counters = (.ok items, drawnUp, counters') ∧
        book.IsDrawnUp counters.item items) ∧
    (book.items ≠ [] →
      book.drawUpList counters = .error (.listExists book.run.id) ∧
        Edit.drawUpList.on book counters = (.error (.listExists book.run.id), book, counters)) := by
  refine ⟨book.demands_eq_map_products, fun fit totals => OrderBook.demands?_eq_some_iff fit,
    fun hempty => ?_, fun hlisted => ?_⟩
  · have hcounters := (itemsToBuy_enters book.run.id
      (book.demands.filter fun entry => 0 < entry.2) counters).2
    rw [← length_itemsToBuy book.run.id _ counters] at hcounters
    have hdraws := OrderBook.drawUpList_eq_ok_iff.mpr ⟨hempty, rfl, hcounters.symm⟩
    refine ⟨_, hdraws, ?_, book.isDrawnUp_itemsToBuy counters⟩
    rw [Edit.on_drawUpList, hdraws]
  · have hfails : book.drawUpList counters = .error (.listExists book.run.id) := by
      unfold OrderBook.drawUpList
      rw [if_neg (by simpa using hlisted)]
    refine ⟨hfails, ?_⟩
    rw [Edit.on_drawUpList, hfails]

/-- The number after the last one of 64 bits is zero, so the second of two lines comes before the
first one by number. -/
theorem line_numbers_start_over :
    let ask (product : ProductId) : BidRequest := ⟨⟨1⟩, product, .units 1, false, none⟩
    let leader := Participation.join ⟨1⟩ ⟨1⟩ ⟨1⟩ true default
    let book := { OrderBook.start (.start ⟨1⟩ ⟨1⟩ ⟨1⟩ default) leader with
      bids := [(ask ⟨1⟩).newBid ⟨1⟩ default, (ask ⟨2⟩).newBid ⟨2⟩ default] }
    let counters := Counters.startingAfter ⟨1, 1, 2, 2 ^ 64 - 2⟩
    ∃ after counters', book.drawUpList counters = .ok (after, counters') ∧
      after.items.map (·.id) = [⟨2 ^ 64 - 1⟩, ⟨0⟩] ∧
      ¬ (after.items.map (·.id)).Pairwise (· < ·) := by
  refine ⟨_, _, rfl, ?_, ?_⟩ <;> decide

end BuyingClub
