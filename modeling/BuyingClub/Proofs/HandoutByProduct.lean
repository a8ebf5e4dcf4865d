import BuyingClub.Proofs.Checked.Handout
import BuyingClub.Proofs.OrderBook.Settling

/-!
# Handouts, product by product

What the whole handout does to a book is told line by line of its list, and nothing of it depends on
the other products.
-/

namespace BuyingClub

/-! ## Bids but for their numbers -/

def Bid.unnumbered (b : Bid) : Bid := { b with id := ⟨0⟩ }

/-- The known bids are the same, and the new ones are but for their numbers. -/
def SameButNewIds (known : Nat) (bids bids' : List Bid) : Prop :=
  bids.take known = bids'.take known ∧ bids.map (·.unnumbered) = bids'.map (·.unnumbered)

theorem SameButNewIds.refl (known : Nat) (bids : List Bid) : SameButNewIds known bids bids :=
  ⟨rfl, rfl⟩

theorem fulfil_sameButNewIds {known : Nat} {bids bids' : List Bid}
    (h : SameButNewIds known bids bids') (bought : Purchase) :
    SameButNewIds known (fulfil bought bids) (fulfil bought bids') := by
  let f (b : Bid) := if b.countsFor bought.product then b.handedOut b.quantity bought.price else b
  have hcomm (bids : List Bid) : (fulfil bought bids).map (·.unnumbered) =
      (bids.map (·.unnumbered)).map f := by
    unfold fulfil
    rw [List.map_map, List.map_map]
    refine List.map_congr_left fun b _ => ?_
    show Bid.unnumbered (if b.countsFor bought.product then _ else b) =
      if b.countsFor bought.product then _ else b.unnumbered
    split <;> rfl
  refine ⟨?_, ?_⟩
  · unfold fulfil
    rw [← List.map_take, h.1, List.map_take]
  · rw [hcomm, hcomm, h.2]

theorem grantSurplus_sameButNewIds (leader : ParticipationId) (product : ProductId)
    (surplus : Quantity) (now : Instant) (bids : List Bid) (counters counters' : Counters) :
    SameButNewIds bids.length (grantSurplus leader product surplus now bids counters).1
      (grantSurplus leader product surplus now bids counters').1 := by
  unfold grantSurplus
  split
  · exact .refl ..
  · refine ⟨?_, ?_⟩
    · rw [List.take_left', List.take_left'] <;> rfl
    · rw [List.map_append, List.map_append]
      rfl

namespace OrderBook

variable {leader : ParticipationId} {bought : Purchase} {now : Instant} {book other : OrderBook}
  {counters : Counters} {product : ProductId}

theorem handOutProduct_sameButNewIds (leader : ParticipationId) (now : Instant) (bought : Purchase)
    (book : OrderBook) (counters counters' : Counters) :
    SameButNewIds book.bids.length (handOutProduct leader now bought book counters).2.1.bids
      (handOutProduct leader now bought book counters').2.1.bids := by
  unfold handOutProduct
  dsimp only
  split
  · exact .refl ..
  · split
    · exact fulfil_sameButNewIds (grantSurplus_sameButNewIds ..) bought
    · exact .refl ..

/-! ## Purchases by their product -/

theorem find?_purchases (distinct : (book.items.map (·.product)).Nodup) (product : ProductId) :
    book.purchases.find? (·.product = product) = (book.itemFor? product).bind (·.purchase?) := by
  unfold itemFor?
  rw [purchases_eq]
  generalize book.items = items at distinct
  induction items with
  | nil => rfl
  | cons item rest ih =>
    rw [List.map_cons, List.nodup_cons] at distinct
    obtain ⟨hitem, hrest⟩ := distinct
    have hnone (hfound : item.product = product) :
        (rest.filterMap (·.purchase?)).find? (·.product = product) = none := by
      refine List.find?_eq_none.mpr fun bought hbought heq => hitem ?_
      obtain ⟨later, hlater, hpurchase⟩ := List.mem_filterMap.mp hbought
      refine List.mem_map.mpr ⟨later, hlater, ?_⟩
      rw [← ShoppingItem.product_of_purchase? hpurchase, hfound]
      exact of_decide_eq_true heq
    by_cases hfound : item.product = product
    · have hfirst : (item :: rest).find? (·.product = product) = some item :=
        List.find?_cons_of_pos (decide_eq_true hfound)
      rw [hfirst, Option.bind_some, List.filterMap_cons]
      cases hpurchase : item.purchase? with
      | none => exact hnone hfound
      | some bought =>
        have hproduct := ShoppingItem.product_of_purchase? hpurchase
        exact List.find?_cons_of_pos (decide_eq_true (hproduct.trans hfound))
    · have hlater : (item :: rest).find? (·.product = product) =
          rest.find? (·.product = product) :=
        List.find?_cons_of_neg fun heq => hfound (of_decide_eq_true heq)
      rw [hlater, ← ih hrest, List.filterMap_cons]
      cases hpurchase : item.purchase? with
      | none => rfl
      | some bought =>
        refine List.find?_cons_of_neg fun heq => hfound ?_
        rw [← ShoppingItem.product_of_purchase? hpurchase]
        exact of_decide_eq_true heq

theorem find?_purchases_of_mem (distinct : (book.items.map (·.product)).Nodup)
    {item : ShoppingItem} (hitem : item ∈ book.items) :
    book.purchases.find? (·.product = item.product) = item.purchase? := by
  have hfound : book.itemFor? item.product = some item := find?_of_nodup distinct hitem
  rw [find?_purchases distinct, hfound]
  rfl

theorem nodup_purchases (distinct : (book.items.map (·.product)).Nodup) :
    (book.purchases.map (·.product)).Nodup :=
  distinct.sublist book.purchases_sublist

/-- The line as the handout leaves it. -/
def settledItem (book : OrderBook) (item : ShoppingItem) : ShoppingItem :=
  match item.purchase? with
  | none => item
  | some bought => item.settle (book.demand item.product) bought

theorem product_settledItem (book : OrderBook) (item : ShoppingItem) :
    (book.settledItem item).product = item.product := by
  unfold settledItem
  split
  · rfl
  · exact ShoppingItem.product_settle ..

theorem handOut_items_eq (distinct : (book.items.map (·.product)).Nodup) :
    (handOutAll leader now book.purchases book counters).2.1.items =
      book.items.map book.settledItem := by
  rw [handOutAll_items_eq distinct (nodup_purchases distinct)]
  refine List.map_congr_left fun item hitem => ?_
  rw [find?_purchases_of_mem distinct hitem]
  rfl

theorem handOut_itemFor? (distinct : (book.items.map (·.product)).Nodup) :
    (handOutAll leader now book.purchases book counters).2.1.itemFor? product =
      (book.itemFor? product).map book.settledItem := by
  unfold itemFor?
  rw [handOut_items_eq distinct, List.find?_map]
  congr 2
  funext item
  rw [Function.comp_apply, product_settledItem]

/-! ## Two handouts -/

/-- A product fares the same in two handouts, but for the numbers of the bids that were entered. -/
structure FaresAlike (product : ProductId) (known : Nat)
    (allocations allocations' : List Allocation) (after after' : OrderBook) : Prop where
  allocation : allocations.find? (·.product = product) = allocations'.find? (·.product = product)
  bids : SameButNewIds known (after.bidsFor product) (after'.bidsFor product)
  item : after.itemFor? product = after'.itemFor? product

theorem demand_eq_of_bidsFor (same : other.bidsFor product = book.bidsFor product) :
    other.demand product = book.demand product := by
  rw [← demand_bidsFor other, ← demand_bidsFor book, same]
  rfl

theorem handOut_bidsFor_alike (counters counters' : Counters)
    (distinct : (book.items.map (·.product)).Nodup)
    (distinct' : (other.items.map (·.product)).Nodup)
    (bids : other.bidsFor product = book.bidsFor product)
    (purchase : other.purchases.find? (·.product = product) =
      book.purchases.find? (·.product = product)) :
    SameButNewIds (book.bidsFor product).length
      ((handOutAll leader now book.purchases book counters).2.1.bidsFor product)
      ((handOutAll leader now other.purchases other counters').2.1.bidsFor product) := by
  cases hfound : book.purchases.find? (·.product = product) with
  | none =>
    have hmisses {purchases : List Purchase} (h : purchases.find? (·.product = product) = none) :
        ∀ bought ∈ purchases, product ≠ bought.product := fun bought hbought heq =>
      List.find?_eq_none.mp h bought hbought (decide_eq_true heq.symm)
    rw [handOutAll_bidsFor_of_ne (hmisses hfound),
      handOutAll_bidsFor_of_ne (hmisses (purchase.trans hfound)), bids]
    exact .refl ..
  | some bought =>
    obtain rfl : bought.product = product := by simpa using List.find?_some hfound
    obtain ⟨drawn, hbids⟩ := handOutAll_bidsFor leader now book counters
      (nodup_purchases distinct) (List.mem_of_find?_eq_some hfound)
    obtain ⟨drawn', hbids'⟩ := handOutAll_bidsFor leader now other counters'
      (nodup_purchases distinct') (List.mem_of_find?_eq_some (purchase.trans hfound))
    have hsame := handOutProduct_sameButNewIds leader now bought
      { book with bids := book.bidsFor bought.product } drawn drawn'
    rw [hbids, hbids', bids]
    refine ⟨hsame.1.trans ?_, hsame.2.trans ?_⟩
    · rw [(handOutProduct_congr _).2.1]
      rfl
    · rw [(handOutProduct_congr _).2.1]
      rfl

theorem handOut_faresAlike (counters counters' : Counters)
    (distinct : (book.items.map (·.product)).Nodup)
    (distinct' : (other.items.map (·.product)).Nodup)
    (bids : other.bidsFor product = book.bidsFor product)
    (item : other.itemFor? product = book.itemFor? product) :
    FaresAlike product (book.bidsFor product).length
      (handOutAll leader now book.purchases book counters).1
      (handOutAll leader now other.purchases other counters').1
      (handOutAll leader now book.purchases book counters).2.1
      (handOutAll leader now other.purchases other counters').2.1 := by
  have hpurchase : other.purchases.find? (·.product = product) =
      book.purchases.find? (·.product = product) := by
    rw [find?_purchases distinct, find?_purchases distinct', item]
  have hallocation (b : OrderBook) (counters : Counters) (h : (b.items.map (·.product)).Nodup) :
      (handOutAll leader now b.purchases b counters).1.find? (·.product = product) =
        (b.purchases.find? (·.product = product)).map (·.allocation (b.demand product)) := by
    rw [handOutAll_allocations _ _ _ _ (nodup_purchases h), List.find?_map]
    refine Option.map_congr fun bought hbought => ?_
    have hpasses := List.find?_some hbought
    rw [Function.comp_apply, decide_eq_true_eq] at hpasses
    have hproduct : bought.product = product := hpasses
    rw [hproduct]
  refine ⟨?_, handOut_bidsFor_alike counters counters' distinct distinct' bids hpurchase, ?_⟩
  · rw [hallocation book _ distinct, hallocation other _ distinct', hpurchase,
      demand_eq_of_bidsFor bids]
  · rw [handOut_itemFor? distinct, handOut_itemFor? distinct', item]
    refine Option.map_congr fun line hline => ?_
    unfold settledItem
    rw [product_of_itemFor? hline, demand_eq_of_bidsFor bids]

end OrderBook

/-- Let what was bought be handed out in a book with a leader, with one line for a product and one
bid for a participant and a product. The handout succeeds. It tells of each purchase how much of it
was asked for and how it was split. The bids are still there, in their order, and but for what is
handed out only the leader's bids on a surplus change: they take it, or a bid for it comes after
all others. Lines change in the quantity that was asked for. In 64 bits, with no negative bid, the
handout comes to this end if the totals of what was bought fit, and otherwise to none. And with
other products on the list, whatever becomes of them, a product fares the same. -/
theorem handout_product_by_product {book : OrderBook} {leader : Participation}
    (leads : book.leader? = some leader) (list : (book.items.map (·.product)).Nodup)
    (oneEach : (book.bids.map fun b => (b.participation, b.product)).Nodup) (now : Instant)
    (counters : Counters) :
    ∃ allocations after counters',
      book.handOut now counters = .ok (allocations, after, counters') ∧
      (allocations = book.purchases.map fun bought =>
        bought.allocation (book.demand bought.product)) ∧
      SettleTo leader.id now allocations book.bids after.bids ∧
      after.items = book.items.map book.settledItem ∧
      after.run = book.run ∧ after.participations = book.participations ∧
      ((∀ b ∈ book.bids, 0 ≤ b.quantity) →
        (∀ bought ∈ book.purchases, FitsAmount bought.quantity.hundredths) →
          ∀ result, book.handOut? now counters = some result ↔
            result = .ok (allocations, after, counters') ∧
              ∀ bought ∈ book.purchases, FitsAmount (book.demand bought.product).hundredths) ∧
      ∀ other : OrderBook, other.leader? = some leader → (other.items.map (·.product)).Nodup →
        ∀ counters₁, ∃ allocations₁ after₁ counters₂,
          other.handOut now counters₁ = .ok (allocations₁, after₁, counters₂) ∧
          ∀ product, other.bidsFor product = book.bidsFor product →
            other.itemFor? product = book.itemFor? product →
              OrderBook.FaresAlike product (book.bidsFor product).length allocations allocations₁
                after after₁ := by
  have hhandOut (b : OrderBook) (counters : Counters) (h : b.leader? = some leader) :
      b.handOut now counters = .ok (OrderBook.handOutAll leader.id now b.purchases b counters) :=
    OrderBook.handOut_eq_ok_iff.mpr ⟨leader, h, rfl⟩
  have hdistinct := OrderBook.nodup_purchases list
  refine ⟨_, _, _, hhandOut book counters leads, OrderBook.handOutAll_allocations _ _ _ _ hdistinct,
    OrderBook.handOutAll_settleTo (.of_nodup oneEach) hdistinct, OrderBook.handOut_items_eq list,
    OrderBook.handOut_run (hhandOut book counters leads),
    OrderBook.handOut_participations (hhandOut book counters leads), ?_, ?_⟩
  · intro nonneg fit result
    rw [OrderBook.handOut?_eq_some_iff leads nonneg list fit, hhandOut book counters leads]
  · intro other leads' list' counters₁
    refine ⟨_, _, _, hhandOut other counters₁ leads', fun product bids item => ?_⟩
    exact OrderBook.handOut_faresAlike counters counters₁ list list' bids item

/-- Two of three units were bought of the first product, three instead of one of the second, two
instead of one of the third, and of the fourth the one that was bid for. The leader bids on the
first product and is interested in the second. -/
def OrderBook.ofFourProducts : OrderBook where
  run := .start ⟨1⟩ ⟨1⟩ ⟨1⟩ (.ofSeconds 0)
  participations :=
    [.join ⟨1⟩ ⟨1⟩ ⟨1⟩ true (.ofSeconds 0), .join ⟨2⟩ ⟨1⟩ ⟨2⟩ false (.ofSeconds 0)]
  bids :=
    [.forSurplus ⟨1⟩ ⟨2⟩ ⟨1⟩ (.units 2) (.ofSeconds 0),
      .forSurplus ⟨2⟩ ⟨1⟩ ⟨1⟩ (.units 1) (.ofSeconds 0),
      { Bid.forSurplus ⟨3⟩ ⟨1⟩ ⟨2⟩ 0 (.ofSeconds 0) with interestedOnly := true },
      .forSurplus ⟨4⟩ ⟨2⟩ ⟨2⟩ (.units 1) (.ofSeconds 0),
      .forSurplus ⟨5⟩ ⟨2⟩ ⟨3⟩ (.units 1) (.ofSeconds 0),
      .forSurplus ⟨6⟩ ⟨2⟩ ⟨4⟩ (.units 1) (.ofSeconds 0)]
  items := [2, 3, 2, 1].zipIdx.map fun (bought, place) =>
    (ShoppingItem.toBuy ⟨place + 1⟩ ⟨1⟩ ⟨place + 1⟩ (.units 1)).purchased (.units bought) ⟨100⟩
      ⟨100 * bought⟩ place

/-- Only the third of the products was bought. -/
def OrderBook.ofThirdProduct : OrderBook :=
  { ofFourProducts with items := (ofFourProducts.items.drop 2).take 1 }

/-- All three kinds of split in one handout. The third product fares the same if it is the only one
that was bought. -/
theorem handout_of_four_products :
    ∃ allocations after counters',
      OrderBook.ofFourProducts.handOut (.ofSeconds 60) .start =
        .ok (allocations, after, counters') ∧
      OrderBook.ofFourProducts.handOut? (.ofSeconds 60) .start =
        some (.ok (allocations, after, counters')) ∧
      allocations.map (·.split) =
        [.prorated, .surplus (.units 2), .surplus (.units 1), .exact] ∧
      SettleTo ⟨1⟩ (.ofSeconds 60) allocations OrderBook.ofFourProducts.bids after.bids ∧
      ∃ allocations₁ after₁ counters₁,
        OrderBook.ofThirdProduct.handOut (.ofSeconds 60) .start =
          .ok (allocations₁, after₁, counters₁) ∧
        OrderBook.FaresAlike ⟨3⟩ 1 allocations allocations₁ after after₁ := by
  obtain ⟨allocations, after, counters', hhandOut, hallocations, hsettle, _, _, _, hchecked,
      hothers⟩ :=
    handout_product_by_product (show OrderBook.ofFourProducts.leader? = _ from rfl) (by decide)
      (by decide) (.ofSeconds 60) .start
  obtain ⟨allocations₁, after₁, counters₁, hhandOut₁, halike⟩ := hothers
    .ofThirdProduct rfl (by decide) .start
  refine ⟨allocations, after, counters', hhandOut, ?_, ?_, hsettle, allocations₁, after₁, counters₁,
    hhandOut₁, halike ⟨3⟩ rfl (by decide)⟩
  · exact (hchecked (by decide) (by decide) _).mpr ⟨rfl, by decide⟩
  · rw [hallocations]
    decide

end BuyingClub
