import BuyingClub.Proofs.Command.Frame
import BuyingClub.Proofs.OrderBook.Sharing
import BuyingClub.Proofs.OrderBook.ShoppingList

/-!
# Where the lines of the shopping list come from

Lines are drawn up once. From then on a line changes when something is bought or given back, and
when a handout asks for another quantity than the list did.
-/

namespace BuyingClub

/-- What a line after a command comes of, given the lines before. -/
inductive ShoppingItem.ComesOf (limits : Limits) (items : List ShoppingItem) : ShoppingItem → Prop
  | stays {item : ShoppingItem} (known : item ∈ items) (requested : Quantity) :
      ComesOf limits items { item with requestedQuantity := requested }
  | listed (id : ItemId) (run : RunId) (product : ProductId) (requested : Quantity) :
      ComesOf limits items (.toBuy id run product requested)
  | bought {item : ShoppingItem} {quantity price : Binary64} {total : Option Binary64}
      {q : Quantity} {each paid : Money} (known : item ∈ items)
      (reads : Draft.readPurchase limits quantity price total = .ok (q, each, paid))
      (order : Nat) : ComesOf limits items (item.purchased q each paid order)
  | returned {item : ShoppingItem} (known : item ∈ items) :
      ComesOf limits items item.unpurchased

namespace ShoppingItem.ComesOf

variable {limits : Limits} {items : List ShoppingItem} {item : ShoppingItem}

theorem of_mem (h : item ∈ items) : item.ComesOf limits items := .stays h item.requestedQuantity

theorem of_handOut {book after : OrderBook} {now : Instant} {counters counters' : Counters}
    {allocations : List Allocation}
    (handsOut : book.handOut now counters = .ok (allocations, after, counters'))
    (h : item ∈ after.items) : item.ComesOf limits book.items := by
  let unasked (item : ShoppingItem) : ShoppingItem := { item with requestedQuantity := 0 }
  have hmem : unasked item ∈ book.items.map unasked := by
    rw [← OrderBook.handOut_items handsOut unasked fun _ _ => rfl]
    exact List.mem_map_of_mem h
  obtain ⟨old, hold, heq⟩ := List.mem_map.mp hmem
  have hitem : item = { old with requestedQuantity := item.requestedQuantity } :=
    congrArg (fun other : ShoppingItem =>
      { other with requestedQuantity := item.requestedQuantity }) heq.symm
  rw [hitem]
  exact .stays hold _

end ShoppingItem.ComesOf

/-! ## Purchases -/

/-- A quantity, a price and a total that may be recorded. -/
structure Limits.AllowsPurchase (limits : Limits) (quantity : Quantity) (price total : Money) :
    Prop where
  quantity : 0 ≤ quantity ∧ quantity ≤ limits.maxPurchaseQuantity
  price : 0 ≤ price ∧ price ≤ limits.maxPrice
  total : ∃ largest, limits.maxPrice.times limits.maxPurchaseQuantity = .ok largest ∧
    0 ≤ total ∧ total ≤ largest

namespace Draft

variable {limits : Limits} {d after : Draft} {user : UserId} {action : Action} {reply : Reply}

theorem readPurchase_eq_ok_iff {quantity price : Binary64} {total : Option Binary64} {q : Quantity}
    {each paid : Money} :
    readPurchase limits quantity price total = .ok (q, each, paid) ↔
      Quantity.ofBinary64 quantity = .ok q ∧ Money.ofBinary64 price = .ok each ∧
        purchaseTotal q each total = .ok paid ∧ limits.AllowsPurchase q each paid := by
  simp only [readPurchase, bind_eq_ok_iff, checkIf_eq_ok_iff, throw_eq_ok_iff, pure_eq_ok_iff,
    mapError_eq_ok_iff, Prod.mk.injEq, imp_false, not_or, Quantity.lt_def, Money.lt_def, Int.not_lt]
  constructor
  · rintro ⟨_, reads, _, readsPrice, hnonneg, hquantity, hprice, _, costs, largest, hlargest,
      htotal, rfl, rfl, rfl⟩
    exact ⟨reads, readsPrice, costs, ⟨hnonneg.1, hquantity⟩, ⟨hnonneg.2, hprice⟩, largest, hlargest,
      htotal⟩
  · rintro ⟨reads, readsPrice, costs, hquantity, hprice, largest, hlargest, htotal⟩
    exact ⟨q, reads, each, readsPrice, ⟨hquantity.1, hprice.1⟩, hquantity.2, hprice.2, paid, costs,
      largest, hlargest, htotal, rfl, rfl, rfl⟩

theorem readPurchase_allowed {quantity price : Binary64} {total : Option Binary64} {q : Quantity}
    {each paid : Money} (h : readPurchase limits quantity price total = .ok (q, each, paid)) :
    limits.AllowsPurchase q each paid :=
  (readPurchase_eq_ok_iff.mp h).2.2.2

theorem Outcome.comesOf (h : d.Outcome limits user action after reply) :
    ∀ item ∈ after.book.items, item.ComesOf limits d.book.items := by
  intro item hitem
  cases h with
  | @bidPlaced _ _ _ _ _ _ _ _ placed admits fits places moves =>
    subst moves
    rw [movedIf_items] at hitem
    have hplaced : item ∈ placed.book.items := hitem
    rw [(admits.frame_placed places).2] at hplaced
    exact .of_mem hplaced
  | bidRetracted isOpen finds fits retracts moves =>
    obtain ⟨_, rfl⟩ := OrderBook.retractBid_eq_ok_iff.mp retracts
    subst moves
    rw [movedIf_items] at hitem
    exact .of_mem hitem
  | readyToggled isActive finds moves =>
    subst moves
    rw [movedIf_items] at hitem
    exact .of_mem hitem
  | shoppingStarted leads allowed drawsUp =>
    obtain ⟨_, rfl, _⟩ := OrderBook.drawUpList_eq_ok_iff.mp drawsUp
    obtain ⟨_, _, _, rfl⟩ := eq_toBuy_of_mem_itemsToBuy hitem
    exact .listed ..
  | purchaseRecorded isShopping mayShop reads finds =>
    rcases mem_updateFirst hitem with hitem | ⟨_, _, rfl⟩
    · exact .of_mem hitem
    · exact .bought (OrderBook.mem_of_itemFor? finds) reads _
  | purchaseUndone isShopping mayShop finds wasBought =>
    rcases mem_updateFirst hitem with hitem | ⟨old, hold, rfl⟩
    · exact .of_mem hitem
    · exact .returned (List.mem_of_find?_eq_some hold)
  | shoppingBalanced leads allowed balanced handsOut => exact .of_handOut handsOut hitem
  | adjustingFinished leads isAdjusting balanced handsOut => exact .of_handOut handsOut hitem
  | _ => exact .of_mem hitem

/-! ## The list as a whole -/

end Draft

/-- Whether a command of this kind buys a line of the list or gives it back. -/
def Action.isPurchase : Action → Bool
  | .recordPurchase .. | .undoPurchase _ => true
  | _ => false

namespace Draft

variable {limits : Limits} {d after : Draft} {user : UserId} {action : Action} {reply : Reply}

/-- What a command makes of the shopping list. -/
inductive ChangesItems (limits : Limits) (d : Draft) : Action → List ShoppingItem → Prop
  | stays {action : Action} (noPurchase : action.isPurchase = false) :
      ChangesItems limits d action d.book.items
  | lists (empty : d.book.items = []) :
      ChangesItems limits d .startShopping
        (itemsToBuy d.book.run.id (d.book.demands.filter fun entry => 0 < entry.2) d.counters).1
  | buys {product : ProductId} {quantity price : Binary64} {total : Option Binary64} {q : Quantity}
      {each paid : Money} {item : ShoppingItem}
      (reads : readPurchase limits quantity price total = .ok (q, each, paid))
      (finds : d.book.itemFor? product = some item) :
      ChangesItems limits d (.recordPurchase product quantity price total)
        (d.book.updateItem product fun _ =>
          item.purchased q each paid (nextOrder d.book.items)).items
  | returns {product : ProductId} {item : ShoppingItem}
      (finds : d.book.itemFor? product = some item) (wasBought : item.isPurchased = true) :
      ChangesItems limits d (.undoPurchase product)
        (d.book.updateItem product (·.unpurchased)).items
  | handsOut {action : Action} {allocations : List Allocation} {book : OrderBook}
      {counters : Counters} (noPurchase : action.isPurchase = false)
      (handsOut : d.book.handOut d.now d.counters = .ok (allocations, book, counters)) :
      ChangesItems limits d action book.items

theorem Outcome.changesItems (h : d.Outcome limits user action after reply) :
    d.ChangesItems limits action after.book.items := by
  cases h with
  | @bidPlaced _ _ _ _ _ _ _ _ placed admits fits places moves =>
    subst moves
    rw [movedIf_items]
    show d.ChangesItems limits _ placed.book.items
    rw [(admits.frame_placed places).2]
    exact .stays rfl
  | bidRetracted isOpen finds fits retracts moves =>
    obtain ⟨_, rfl⟩ := OrderBook.retractBid_eq_ok_iff.mp retracts
    subst moves
    rw [movedIf_items]
    exact .stays rfl
  | readyToggled isActive finds moves =>
    subst moves
    rw [movedIf_items]
    exact .stays rfl
  | shoppingStarted leads allowed drawsUp =>
    obtain ⟨hempty, rfl, _⟩ := OrderBook.drawUpList_eq_ok_iff.mp drawsUp
    exact .lists hempty
  | purchaseRecorded isShopping mayShop reads finds =>
    obtain rfl := OrderBook.product_of_itemFor? finds
    exact .buys reads finds
  | purchaseUndone isShopping mayShop finds wasBought => exact .returns finds wasBought
  | @shoppingBalanced allocations book counters leads allowed balanced handsOut =>
    show d.ChangesItems limits _ book.items
    exact .handsOut rfl handsOut
  | @adjustingFinished _ allocations book counters leads isAdjusting balanced handsOut =>
    show d.ChangesItems limits _ book.items
    exact .handsOut rfl handsOut
  | _ => exact .stays rfl

end Draft

end BuyingClub
