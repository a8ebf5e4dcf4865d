import BuyingClub.Proofs.Command.Bids
import BuyingClub.Proofs.Command.Items
import BuyingClub.Proofs.Integrity
import BuyingClub.Proofs.OrderBook.Surplus

/-!
# How much a book holds

A book never holds more products, participants or purchases than the limits allow. A surplus adds no
product, since a listed product keeps a committed bid until the goods are handed out.
-/

namespace BuyingClub

/-! ## Purchases -/

/-- What the line says of a purchase is within the limits. -/
structure ShoppingItem.IsWithin (limits : Limits) (item : ShoppingItem) : Prop where
  quantity : ∀ quantity, item.purchasedQuantity = some quantity →
    0 ≤ quantity ∧ quantity ≤ limits.maxPurchaseQuantity
  price : ∀ price, item.purchasedPrice = some price → 0 ≤ price ∧ price ≤ limits.maxPrice
  total : ∀ total, item.purchasedTotal = some total →
    ∃ largest, limits.maxPrice.times limits.maxPurchaseQuantity = .ok largest ∧
      0 ≤ total ∧ total ≤ largest

theorem ShoppingItem.ComesOf.isWithin {limits : Limits} {items : List ShoppingItem}
    {item : ShoppingItem} (h : item.ComesOf limits items)
    (before : ∀ item ∈ items, item.IsWithin limits) : item.IsWithin limits := by
  cases h with
  | stays known requested =>
    obtain ⟨hquantity, hprice, htotal⟩ := before _ known
    exact ⟨hquantity, hprice, htotal⟩
  | listed id run product requested => exact ⟨nofun, nofun, nofun⟩
  | bought known reads order =>
    have hallowed := Draft.readPurchase_allowed reads
    refine ⟨?_, ?_, ?_⟩
    · rintro _ ⟨⟩
      exact hallowed.quantity
    · rintro _ ⟨⟩
      exact hallowed.price
    · rintro _ ⟨⟩
      exact hallowed.total
  | returned known => exact ⟨nofun, nofun, nofun⟩

/-! ## Products -/

/-- While goods are bought and bids adjusted, every listed product has a committed bid. -/
def OrderBook.KeepsListed (book : OrderBook) : Prop :=
  book.run.stage = .shopping ∨ book.run.stage = .adjusting →
    ∀ item ∈ book.items, book.bids.any (·.countsFor item.product) = true

namespace OrderBook

variable {limits : Limits} {book after : OrderBook}

theorem any_countsFor_placeBid {request : BidRequest} {now : Instant} {counters : Counters}
    {placed : PlacedBid} (places : book.placeBid limits request now counters = .ok placed)
    (fits : book.checkChange request.participation request.product request.quantity
      request.interestedOnly = .ok ()) (product : ProductId) :
    placed.book.bids.any (·.countsFor product) = book.bids.any (·.countsFor product) := by
  obtain ⟨_, current, _, hcurrent, hflag, _⟩ := checkChange_eq_ok_iff.mp fits
  rcases (placeBid_eq_ok_iff.mp places).2 with ⟨previous, finds, rfl⟩ | ⟨unknown, _, rfl⟩
  · have hcounts : (request.revise now current).countsFor product = current.countsFor product := by
      unfold Bid.countsFor Bid.isCommitted
      rw [hflag]
      rfl
    have hmap := map_updateFirst_of_find? (·.countsFor product) hcurrent hcounts
    have hany (bids : List Bid) : bids.any (·.countsFor product) =
        (bids.map (·.countsFor product)).any id := by
      rw [List.any_map]
      rfl
    rw [hany, hany, hmap]
  · rw [unknown] at hcurrent
    cases hcurrent

theorem drawUpList_keepsListed {counters counters' : Counters}
    (drawsUp : book.drawUpList counters = .ok (after, counters')) :
    ∀ item ∈ after.items, after.bids.any (·.countsFor item.product) = true := by
  obtain ⟨_, rfl, _⟩ := drawUpList_eq_ok_iff.mp drawsUp
  intro item hitem
  obtain ⟨hdemand, hpositive⟩ := List.mem_filter.mp (mem_of_mem_itemsToBuy hitem)
  have hpositive : 0 < item.requestedQuantity := of_decide_eq_true hpositive
  rw [← demand_of_mem_demands hdemand, Quantity.lt_def, hundredths_demand] at hpositive
  exact exists_countsFor_of_pos hpositive

theorem handOut_products {now : Instant} {counters counters' : Counters}
    {allocations : List Allocation}
    (h : book.handOut now counters = .ok (allocations, after, counters'))
    (listed : ∀ item ∈ book.items, book.bids.any (·.countsFor item.product) = true) :
    ∀ b ∈ after.bids, b.product ∈ book.products := by
  obtain ⟨leader, _, hall⟩ := handOut_eq_ok_iff.mp h
  have hforall := @handOutAll_forall (·.product ∈ book.products) leader.id now counters
    book.purchases book (fun _ _ _ => Iff.rfl)
  rw [hall] at hforall
  refine hforall ?_ fun b hb => product_mem_products hb
  intro a ha surplus _ _
  have hproduct : a.product ∈ book.products := by
    have hmap := @map_product_handOutAll leader.id now book.purchases book counters
    rw [hall] at hmap
    have hbought : a.product ∈ book.purchases.map (·.product) := by
      rw [← hmap]
      exact List.mem_map_of_mem ha
    obtain ⟨item, hitem, heq⟩ := List.mem_map.mp (book.purchases_sublist.subset hbought)
    obtain ⟨b, hb, hcounts⟩ := List.any_eq_true.mp (listed item hitem)
    rw [← heq, ← Bid.product_of_countsFor hcounts]
    exact product_mem_products hb
  refine ⟨fun b hb _ => hb, fun id => hproduct⟩

end OrderBook

/-! ## Commands -/

namespace Draft

variable {limits : Limits} {d after : Draft} {user : UserId} {action : Action} {reply : Reply}

theorem stage_of_movedIf {changed : Draft} {c : Bool} {new : Stage}
    (h : (changed.movedIf c new).stage = .shopping ∨ (changed.movedIf c new).stage = .adjusting)
    (hnew : new ≠ .shopping ∧ new ≠ .adjusting) :
    changed.stage = .shopping ∨ changed.stage = .adjusting := by
  rw [movedIf_stage] at h
  split at h
  · exact absurd h (not_or.mpr hnew)
  · exact h

theorem adjusting_of_isOpen {stage : Stage} (h : stage = .shopping ∨ stage = .adjusting)
    (isOpen : stage.isOpen = true) : stage = .adjusting := by
  rcases h with rfl | rfl
  · cases isOpen
  · rfl

theorem Outcome.keepsListed (h : d.Outcome limits user action after reply)
    (before : d.book.KeepsListed) : after.book.KeepsListed := by
  intro hstage item hitem
  cases h with
  | @bidPlaced product _ _ _ _ _ admitted _ placed admits fits places moves =>
    subst moves
    rw [movedIf_items] at hitem
    rw [movedIf_bids]
    have hchanged : (admitted.bidPlaced user product placed).stage = d.stage :=
      stage_bidPlaced admits places
    have hstage := stage_of_movedIf hstage (by decide)
    rw [hchanged] at hstage
    have hadjusting := adjusting_of_isOpen hstage admits.isOpen
    have hlisted : item ∈ d.book.items := by
      rw [← (admits.frame_placed places).2]
      exact hitem
    have hany := OrderBook.any_countsFor_placeBid places (fits hadjusting) item.product
    rw [admits.frame.2.1] at hany
    exact hany.trans (before (.inr hadjusting) item hlisted)
  | bidRetracted isOpen finds fits retracts moves =>
    obtain ⟨hfinds, rfl⟩ := OrderBook.retractBid_eq_ok_iff.mp retracts
    subst moves
    rw [movedIf_items] at hitem
    rw [movedIf_bids]
    have hstage := stage_of_movedIf hstage (by decide)
    have hadjusting : d.stage = .adjusting := adjusting_of_isOpen hstage isOpen
    obtain ⟨bid, hbid, hinterest⟩ := OrderBook.checkRetraction_eq_ok_iff.mp (fits hadjusting)
    have hmisses : bid.countsFor item.product = false := by
      simp [Bid.countsFor, Bid.isCommitted, hinterest]
    exact (any_eraseP hbid hmisses).trans (before (.inr hadjusting) item hitem)
  | readyToggled isActive finds moves =>
    subst moves
    have hstage := stage_of_movedIf hstage (by decide)
    have hactive : Stage.active = .shopping ∨ Stage.active = .adjusting := isActive ▸ hstage
    rcases hactive with hstage | hstage <;> cases hstage
  | helperSet leads isLive finds => exact before hstage item hitem
  | confirmed leads allowed => rcases hstage with hstage | hstage <;> cases hstage
  | shoppingStarted leads allowed drawsUp =>
    exact OrderBook.drawUpList_keepsListed drawsUp item hitem
  | purchaseRecorded isShopping mayShop reads finds =>
    rcases mem_updateFirst hitem with hitem | ⟨_, _, rfl⟩
    · exact before (.inl isShopping) item hitem
    · have hany := before (.inl isShopping) _ (OrderBook.mem_of_itemFor? finds)
      exact hany
  | purchaseUndone isShopping mayShop finds wasBought =>
    rcases mem_updateFirst hitem with hitem | ⟨old, hold, rfl⟩
    · exact before (.inl isShopping) item hitem
    · exact before (.inl isShopping) old (List.mem_of_find?_eq_some hold)
  | shoppingUnbalanced leads isShopping unbalanced => exact before (.inl isShopping) item hitem
  | pickedUp isDistributing mayShop finds hasGoods =>
    have hdistributing : d.stage = .shopping ∨ d.stage = .adjusting := hstage
    rw [isDistributing] at hdistributing
    rcases hdistributing with hstage | hstage <;> cases hstage
  | _ => rcases hstage with hstage | hstage <;> cases hstage

/-- A surplus goes to a product that has bids, so only placing a bid can bring in another one. -/
theorem ChangesBids.known {bids : List Bid} {allocations : List Allocation}
    (h : d.ChangesBids limits after bids allocations) (listed : d.book.KeepsListed)
    (before : d.book.products.length ≤ limits.maxProducts) :
    ∃ known : List ProductId,
      known.length ≤ limits.maxProducts ∧ ∀ b ∈ bids, b.product ∈ known := by
  have hknown : ∀ b ∈ d.book.bids, b.product ∈ d.book.products :=
    fun b hb => OrderBook.product_mem_products hb
  cases h with
  | stays => exact ⟨d.book.products, before, hknown⟩
  | @places book request counters placed isOpen staysOpen sameBids reads fits places =>
    have hproducts : book.products = d.book.products := by
      unfold OrderBook.products
      rw [sameBids]
    rw [← sameBids] at hknown
    rcases (OrderBook.placeBid_eq_ok_iff.mp places).2 with
      ⟨previous, finds, rfl⟩ | ⟨unknown, fits, rfl⟩
    · refine ⟨d.book.products, before, fun b hb => ?_⟩
      rcases mem_updateFirst hb with hb | ⟨old, hold, rfl⟩
      · exact hknown b hb
      · exact hknown old (List.mem_of_find?_eq_some hold)
    · rw [OrderBook.checkNewProduct_eq_ok_iff, hproducts] at fits
      rcases fits with hold | hroom
      · refine ⟨d.book.products, before, fun b hb => ?_⟩
        rcases List.mem_append.mp hb with hb | hb
        · exact hknown b hb
        · rw [List.mem_singleton.mp hb]
          exact hold
      · refine ⟨request.product :: d.book.products, hroom, fun b hb => ?_⟩
        rcases List.mem_append.mp hb with hb | hb
        · exact List.mem_cons_of_mem _ (hknown b hb)
        · rw [List.mem_singleton.mp hb]
          exact List.mem_cons_self
  | retracts isOpen staysOpen fits =>
    exact ⟨d.book.products, before, fun b hb => hknown b (List.mem_of_mem_eraseP hb)⟩
  | handsOut bought distributes handsOut =>
    exact ⟨d.book.products, before, OrderBook.handOut_products handsOut (listed bought)⟩
  | marks isDistributing finds =>
    refine ⟨d.book.products, before, fun b hb => ?_⟩
    rcases mem_updateFirst hb with hb | ⟨_, _, rfl⟩
    · exact hknown b hb
    · have hmarked := hknown _ (List.mem_of_find?_eq_some finds)
      exact hmarked

theorem Outcome.products_le (h : d.Outcome limits user action after reply)
    (listed : d.book.KeepsListed) (before : d.book.products.length ≤ limits.maxProducts) :
    after.book.products.length ≤ limits.maxProducts := by
  obtain ⟨known, hlength, hknown⟩ := h.changesBids.known listed before
  exact Nat.le_trans (OrderBook.length_products_le hknown) hlength

/-! ### Participants -/

theorem Outcome.participations_le (h : d.Outcome limits user action after reply)
    (noneRemoved : ∀ p ∈ d.book.participations, p.isRemoved = false)
    (before : d.book.participations.length ≤ max 1 limits.maxMembers) :
    after.book.participations.length ≤ max 1 limits.maxMembers := by
  have hactive := OrderBook.activeParticipations_eq noneRemoved
  cases h with
  | @bidPlaced _ _ _ _ _ _ _ _ placed admits fits places moves =>
    subst moves
    rw [movedIf_participations]
    show placed.book.participations.length ≤ max 1 limits.maxMembers
    rw [(OrderBook.placeBid_frame places).2.1]
    cases admits with
    | participant isOpen reads finds => exact before
    | newcomer isOpen reads unknown takesNewcomers hasRoom =>
      rw [hactive] at hasRoom
      simp only [joined, List.length_append, List.length_singleton]
      omega
  | bidRetracted isOpen finds fits retracts moves =>
    obtain ⟨_, rfl⟩ := OrderBook.retractBid_eq_ok_iff.mp retracts
    subst moves
    rw [movedIf_participations]
    exact before
  | readyToggled isActive finds moves =>
    subst moves
    rw [movedIf_participations]
    rw [← length_updateFirst] at before
    exact before
  | helperSet leads isLive finds =>
    rw [← length_updateFirst] at before
    exact before
  | shoppingStarted leads allowed drawsUp =>
    obtain ⟨_, rfl, _⟩ := OrderBook.drawUpList_eq_ok_iff.mp drawsUp
    exact before
  | shoppingBalanced leads allowed balanced handsOut =>
    rw [← OrderBook.handOut_participations handsOut] at before
    exact before
  | adjustingFinished leads isAdjusting balanced handsOut =>
    rw [← OrderBook.handOut_participations handsOut] at before
    exact before
  | _ => exact before

end Draft

/-! ## Every reachable book -/

/-- What a book keeps of the limits. -/
structure OrderBook.KeepsLimits (limits : Limits) (book : OrderBook) : Prop where
  tidy : book.IsTidy
  listed : book.KeepsListed
  products : book.products.length ≤ limits.maxProducts
  participations : book.participations.length ≤ max 1 limits.maxMembers
  items : ∀ item ∈ book.items, item.IsWithin limits

theorem OrderBook.IsNew.keepsLimits {limits : Limits} {book : OrderBook} (h : book.IsNew) :
    book.KeepsLimits limits := by
  have htidy := h.isTidy
  obtain ⟨id, group, store, leader, participation, now, rfl⟩ := h
  exact ⟨htidy, fun _ => nofun, Nat.zero_le _, Nat.le_max_left .., nofun⟩

theorem OrderBook.Reachable.keepsLimits {limits : Limits} {book : OrderBook}
    (h : book.Reachable limits) : book.KeepsLimits limits := by
  refine h.induct (fun _ => IsNew.keepsLimits) ?_
  intro book counters now user action d reply before houtcome
  exact {
    tidy := houtcome.isTidy before.tidy
    listed := houtcome.keepsListed before.listed
    products := houtcome.products_le before.listed before.products
    participations := houtcome.participations_le before.tidy.seated.noneRemoved
      before.participations
    items := fun item hitem => (houtcome.comesOf item hitem).isWithin before.items }

end BuyingClub
