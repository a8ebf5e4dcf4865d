import BuyingClub.Proofs.Command.Items
import BuyingClub.Proofs.LeavingAdjusting

/-!
# Reconciliation

Bids of an adjusting run go up and down one at a time, each only towards the balance and within the
limits. A shortage can always be settled that way. A surplus can, exactly if the committed bids have
room for it below the limit of a bid.
-/

namespace BuyingClub

/-! ## Within the limits -/

/-- A bid is within its limit until goods are handed out, and no purchase is negative. -/
structure OrderBook.IsWithin (limits : Limits) (book : OrderBook) : Prop where
  bids : book.run.stage.isBeforeHandout = true →
    ∀ b ∈ book.bids, limits.checkBid b.quantity = .ok ()
  purchases : ∀ quantity, some quantity ∈ book.items.map (·.bought?) → 0 ≤ quantity

theorem OrderBook.checkBid_of_placeBid {limits : Limits} {book : OrderBook} {request : BidRequest}
    {now : Instant} {counters : Counters} {placed : PlacedBid}
    (h : book.placeBid limits request now counters = .ok placed)
    (before : ∀ b ∈ book.bids, limits.checkBid b.quantity = .ok ()) :
    ∀ b ∈ placed.book.bids, limits.checkBid b.quantity = .ok () := by
  intro b hb
  obtain ⟨hquantity, ⟨previous, finds, rfl⟩ | ⟨unknown, _, rfl⟩⟩ := placeBid_eq_ok_iff.mp h
  · rcases mem_updateFirst hb with hb | ⟨old, _, rfl⟩
    · exact before b hb
    · exact hquantity
  · rcases List.mem_append.mp hb with hb | hb
    · exact before b hb
    · rw [List.mem_singleton] at hb
      rw [hb]
      exact hquantity

namespace Draft

variable {limits : Limits} {d after : Draft} {user : UserId} {action : Action} {reply : Reply}

theorem Outcome.checkBid (h : d.Outcome limits user action after reply)
    (hafter : after.stage.isBeforeHandout = true)
    (before : ∀ b ∈ d.book.bids, limits.checkBid b.quantity = .ok ()) :
    ∀ b ∈ after.book.bids, limits.checkBid b.quantity = .ok () := by
  have hstage := h.isBeforeHandout hafter
  have hchanges := h.changesBids
  generalize after.book.bids = bids, reply.allocations = allocations at hchanges ⊢
  cases hchanges with
  | stays => exact before
  | places isOpen staysOpen sameBids reads fits places =>
    rw [← sameBids] at before
    exact OrderBook.checkBid_of_placeBid places before
  | retracts isOpen staysOpen fits => exact fun b hb => before b (List.mem_of_mem_eraseP hb)
  -- Goods are handed out here, and the leader's bid may take a surplus beyond the limit.
  | handsOut bought distributes handsOut =>
    rw [distributes] at hafter
    cases hafter
  | marks isDistributing finds =>
    rw [isDistributing] at hstage
    cases hstage

theorem Outcome.purchases_nonneg (h : d.Outcome limits user action after reply)
    (before : ∀ quantity, some quantity ∈ d.book.items.map (·.bought?) → 0 ≤ quantity) :
    ∀ quantity, some quantity ∈ after.book.items.map (·.bought?) → 0 ≤ quantity := by
  intro quantity hquantity
  obtain ⟨item, hitem, hbought⟩ := List.mem_map.mp hquantity
  cases h.comesOf item hitem with
  | stays known requested => exact before quantity (List.mem_map.mpr ⟨_, known, hbought⟩)
  | listed id run product requested => cases hbought
  | bought known reads order =>
    cases hbought
    exact (readPurchase_allowed reads).quantity.1
  | returned known => cases hbought

theorem Outcome.isWithin (h : d.Outcome limits user action after reply)
    (before : d.book.IsWithin limits) : after.book.IsWithin limits where
  bids hafter := h.checkBid hafter (before.bids (h.isBeforeHandout hafter))
  purchases := h.purchases_nonneg before.purchases

end Draft

theorem OrderBook.Reachable.isWithin {limits : Limits} {book : OrderBook}
    (h : book.Reachable limits) : book.IsWithin limits := by
  refine h.induct ?_ ?_
  · intro book isNew
    obtain ⟨id, group, store, leader, participation, now, rfl⟩ := isNew
    exact ⟨nofun, nofun⟩
  · intro book counters now user action d reply before houtcome
    exact houtcome.isWithin before

/-! ## Room -/

namespace OrderBook

variable {limits : Limits} {book after : OrderBook} {product : ProductId}

/-- How much more the committed bids on a product may ask for. -/
def headroom (limits : Limits) (book : OrderBook) (product : ProductId) : Quantity :=
  ((book.bids.filter (·.countsFor product)).map (limits.maxBidQuantity - ·.quantity)).sum

theorem hundredths_demand_filter (book : OrderBook) (product : ProductId) :
    (book.demand product).hundredths =
      ((book.bids.filter (·.countsFor product)).map (·.quantity.hundredths)).sum := by
  unfold demand
  rw [Quantity.hundredths_sum, List.map_map]
  rfl

theorem hundredths_headroom (limits : Limits) (book : OrderBook) (product : ProductId) :
    (book.headroom limits product).hundredths =
      ((book.bids.filter (·.countsFor product)).map
        (limits.maxBidQuantity.hundredths - ·.quantity.hundredths)).sum := by
  unfold headroom
  rw [Quantity.hundredths_sum, List.map_map]
  rfl

/-- Demand and headroom together count every committed bid at its largest. -/
theorem demand_add_headroom (limits : Limits) (book : OrderBook) (product : ProductId) :
    (book.demand product).hundredths + (book.headroom limits product).hundredths =
      ((book.bids.map (·.countsFor product)).map fun counts =>
        if counts then limits.maxBidQuantity.hundredths else 0).sum := by
  rw [hundredths_demand_filter, hundredths_headroom, ← List.sum_map_add, List.map_map]
  have hlargest (b : Bid) : b.quantity.hundredths +
      (limits.maxBidQuantity.hundredths - b.quantity.hundredths) =
        limits.maxBidQuantity.hundredths := by
    omega
  simp only [hlargest]
  exact sum_filter (fun _ => limits.maxBidQuantity.hundredths) (·.countsFor product) book.bids

theorem headroom_nonneg (within : ∀ b ∈ book.bids, limits.checkBid b.quantity = .ok ())
    (product : ProductId) : 0 ≤ (book.headroom limits product).hundredths := by
  rw [hundredths_headroom]
  refine List.sum_nonneg fun n hn => ?_
  obtain ⟨b, hb, rfl⟩ := List.mem_map.mp hn
  exact Int.sub_nonneg.mpr
    (Limits.checkBid_eq_ok_iff.mp (within b (List.mem_filter.mp hb).1)).2

theorem exists_positive_bid (h : 0 < (book.demand product).hundredths) :
    ∃ b ∈ book.bids, b.countsFor product = true ∧ 0 < b.quantity.hundredths := by
  rw [hundredths_demand_filter] at h
  obtain ⟨b, hb, hpositive⟩ := List.exists_lt_of_sum_lt (fun _ : Bid => (0 : Int))
    (·.quantity.hundredths) (by simpa using h)
  obtain ⟨hmem, hcounts⟩ := List.mem_filter.mp hb
  exact ⟨b, hmem, hcounts, hpositive⟩

theorem exists_bid_with_room (h : 0 < (book.headroom limits product).hundredths) :
    ∃ b ∈ book.bids, b.countsFor product = true ∧
      b.quantity.hundredths < limits.maxBidQuantity.hundredths := by
  rw [hundredths_headroom] at h
  obtain ⟨b, hb, hroom⟩ := List.exists_lt_of_sum_lt (fun _ : Bid => (0 : Int))
    (limits.maxBidQuantity.hundredths - ·.quantity.hundredths) (by simpa using h)
  obtain ⟨hmem, hcounts⟩ := List.mem_filter.mp hb
  exact ⟨b, hmem, hcounts, Int.sub_pos.mp hroom⟩

/-! ## One step -/

/-- One bidder of an adjusting run changes a bid, as both the adjusting and the limits allow. -/
def Reconciles (limits : Limits) (book after : OrderBook) : Prop :=
  ∃ (request : BidRequest) (now : Instant) (counters : Counters) (placed : PlacedBid),
    book.checkChange request.participation request.product request.quantity
        request.interestedOnly = .ok () ∧
      book.placeBid limits request now counters = .ok placed ∧ after = placed.book

/-- What holds of every book of an adjusting run, and stays as its bids are changed. -/
structure IsAdjustable (limits : Limits) (book : OrderBook) : Prop where
  list : IsSoundList book.items
  oneEach : OneBidEach book.bids
  within : ∀ b ∈ book.bids, limits.checkBid b.quantity = .ok ()
  purchases : ∀ quantity, some quantity ∈ book.items.map (·.bought?) → 0 ≤ quantity

/-- No product was bought beyond what its bids may ask for. -/
def HasRoom (limits : Limits) (book : OrderBook) : Prop :=
  ∀ item ∈ book.items, ∀ purchased, item.bought? = some purchased →
    purchased.hundredths ≤
      (book.demand item.product).hundredths + (book.headroom limits item.product).hundredths

theorem Reconciles.revises (h : book.Reconciles limits after) :
    ∃ (request : BidRequest) (now : Instant) (bid : Bid),
      book.bidOf? request.participation request.product = some bid ∧
        bid.interestedOnly = request.interestedOnly ∧
        limits.checkBid request.quantity = .ok () ∧
        after = { book with
          bids := updateFirst (·.isOf request.participation request.product)
            (request.revise now) book.bids } := by
  obtain ⟨request, now, counters, placed, fits, places, rfl⟩ := h
  obtain ⟨_, bid, _, finds, hflag, _⟩ := checkChange_eq_ok_iff.mp fits
  obtain ⟨hquantity, ⟨previous, _, rfl⟩ | ⟨unknown, _, _⟩⟩ := placeBid_eq_ok_iff.mp places
  · exact ⟨request, now, bid, finds, hflag, hquantity, rfl⟩
  · rw [finds] at unknown
    cases unknown

theorem Reconciles.items (h : book.Reconciles limits after) : after.items = book.items := by
  obtain ⟨_, _, _, _, _, _, rfl⟩ := h.revises
  rfl

theorem Reconciles.isAdjustable (h : book.Reconciles limits after)
    (before : book.IsAdjustable limits) : after.IsAdjustable limits := by
  obtain ⟨request, now, counters, placed, _, places, rfl⟩ := id h
  refine ⟨?_, ?_, checkBid_of_placeBid places before.within, ?_⟩
  · rw [h.items]
    exact before.list
  · obtain ⟨_, _, _, _, _, _, hafter⟩ := h.revises
    rw [hafter]
    exact before.oneEach.update fun b => ⟨rfl, rfl⟩
  · rw [h.items]
    exact before.purchases

theorem Reconciles.demand_add_headroom (h : book.Reconciles limits after) (product : ProductId) :
    (after.demand product).hundredths + (after.headroom limits product).hundredths =
      (book.demand product).hundredths + (book.headroom limits product).hundredths := by
  obtain ⟨request, now, bid, finds, hflag, _, rfl⟩ := h.revises
  have hcounts : (request.revise now bid).countsFor product = bid.countsFor product := by
    unfold Bid.countsFor Bid.isCommitted
    rw [hflag]
    rfl
  rw [OrderBook.demand_add_headroom, OrderBook.demand_add_headroom]
  exact congrArg List.sum (congrArg _ (map_updateFirst_of_find? _ finds hcounts))

theorem Reconciles.hasRoom (h : book.Reconciles limits after) (before : book.HasRoom limits) :
    after.HasRoom limits := by
  intro item hitem purchased hpurchased
  rw [h.items] at hitem
  rw [h.demand_add_headroom]
  exact before item hitem purchased hpurchased

/-! ## Changes that are possible -/

/-- A committed bid on a product can change to another quantity, towards the balance. -/
structure CanMove (limits : Limits) (book : OrderBook) (product : ProductId) (purchased : Quantity)
    (b : Bid) (quantity : Quantity) : Prop where
  mem : b ∈ book.bids
  counts : b.countsFor product = true
  step : checkStep product (purchased - book.demand product) b.quantity quantity = .ok ()
  fits : limits.checkBid quantity = .ok ()
  differs : quantity.hundredths ≠ b.quantity.hundredths

variable {b : Bid} {item : ShoppingItem} {purchased quantity : Quantity}

theorem reconciles_of_canMove (oneEach : OneBidEach book.bids)
    (moves : book.CanMove limits product purchased b quantity)
    (bought : book.purchasedQuantity product = .ok purchased) :
    ∃ after, book.Reconciles limits after ∧
      (∀ other, other ≠ product → after.demand other = book.demand other) ∧
      (after.demand product).hundredths =
        (book.demand product).hundredths - b.quantity.hundredths + quantity.hundredths := by
  obtain ⟨hb, counts, step, fits, _⟩ := moves
  obtain ⟨rfl, committed⟩ : b.product = product ∧ b.interestedOnly = false := by
    simpa [Bid.countsFor, Bid.isCommitted] using counts
  -- Neither the comment nor the time of the change matters.
  let request : BidRequest := ⟨b.participation, b.product, quantity, false, b.comment⟩
  have finds : book.bidOf? b.participation b.product = some b := oneEach.find? hb
  have hchange : book.checkChange b.participation b.product quantity false = .ok () :=
    checkChange_eq_ok_iff.mpr ⟨purchased, b, bought, finds, committed, .inr (.inr step)⟩
  have hplaces : book.placeBid limits request (.ofSeconds 0) .start = .ok _ :=
    placeBid_eq_ok_iff.mpr ⟨fits, .inl ⟨b, finds, rfl⟩⟩
  have htotal := committedTotal_revise (.ofSeconds 0) (show
    book.bidOf? request.participation request.product = some b from finds)
  have hrevised (other : ProductId) :
      (request.revise (.ofSeconds 0) b).countsFor other = b.countsFor other := by
    unfold Bid.countsFor Bid.isCommitted
    rw [committed]
    rfl
  refine ⟨_, ⟨request, .ofSeconds 0, .start, _, hchange, hplaces, rfl⟩, fun other hother => ?_, ?_⟩
  · have hnone : b.countsFor other = false := by simp [Bid.countsFor, hother.symm]
    ext
    rw [hundredths_demand, hundredths_demand]
    refine (htotal other).trans ?_
    rw [Bid.towards_of_countsFor_eq_false hnone,
      Bid.towards_of_countsFor_eq_false ((hrevised other).trans hnone)]
    omega
  · rw [hundredths_demand, hundredths_demand]
    refine (htotal b.product).trans ?_
    rw [Bid.towards_of_countsFor counts, Bid.towards_of_countsFor ((hrevised _).trans counts)]
    rfl

theorem exists_reduction (within : ∀ b ∈ book.bids, limits.checkBid b.quantity = .ok ())
    (nonneg : 0 ≤ purchased)
    (short : purchased.hundredths < (book.demand product).hundredths) :
    ∃ b quantity, book.CanMove limits product purchased b quantity := by
  have hnonneg : 0 ≤ purchased.hundredths := nonneg
  obtain ⟨b, hb, counts, hpositive⟩ := exists_positive_bid (Int.lt_of_le_of_lt hnonneg short)
  have hlimit := (Limits.checkBid_eq_ok_iff.mp (within b hb)).2
  have habs : (purchased - book.demand product).abs.hundredths =
      (purchased.hundredths - (book.demand product).hundredths).natAbs := rfl
  have hfloor := Quantity.hundredths_max (b.quantity - (purchased - book.demand product).abs) 0
  refine ⟨b, max (b.quantity - (purchased - book.demand product).abs) 0, hb, counts,
    checkStep_eq_ok_iff.mpr (.inl ⟨?_, ?_, Int.le_refl _⟩), Limits.checkBid_eq_ok_iff.mpr ⟨?_, ?_⟩,
    ?_⟩ <;>
  · simp only [Quantity.lt_def, Quantity.le_def, Quantity.hundredths_sub, Quantity.hundredths_zero,
      ne_eq] at hfloor hlimit ⊢
    omega

theorem exists_increase (within : ∀ b ∈ book.bids, limits.checkBid b.quantity = .ok ())
    (surplus : (book.demand product).hundredths < purchased.hundredths)
    (room : purchased.hundredths ≤
      (book.demand product).hundredths + (book.headroom limits product).hundredths) :
    ∃ b quantity, book.CanMove limits product purchased b quantity := by
  have hroom : 0 < (book.headroom limits product).hundredths := by omega
  obtain ⟨b, hb, counts, hbelow⟩ := exists_bid_with_room hroom
  have hnonneg := (Limits.checkBid_eq_ok_iff.mp (within b hb)).1
  have hceiling := Quantity.hundredths_min (b.quantity + (purchased - book.demand product))
    limits.maxBidQuantity
  refine ⟨b, min (b.quantity + (purchased - book.demand product)) limits.maxBidQuantity, hb, counts,
    checkStep_eq_ok_iff.mpr (.inr ⟨?_, ?_, ?_⟩), Limits.checkBid_eq_ok_iff.mpr ⟨?_, ?_⟩, ?_⟩ <;>
  · simp only [Quantity.lt_def, Quantity.le_def, Quantity.hundredths_add, Quantity.hundredths_sub,
      Quantity.hundredths_zero, ne_eq] at hceiling hnonneg ⊢
    omega

theorem exists_canMove (adjustable : book.IsAdjustable limits) (room : book.HasRoom limits)
    (hitem : item ∈ book.items) (bought : item.bought? = some purchased)
    (differs : purchased ≠ book.demand item.product) :
    ∃ b quantity, book.CanMove limits item.product purchased b quantity := by
  have hnonneg := adjustable.purchases purchased (List.mem_map.mpr ⟨item, hitem, bought⟩)
  rcases Int.lt_trichotomy purchased.hundredths (book.demand item.product).hundredths with
    short | same | surplus
  · exact exists_reduction adjustable.within hnonneg short
  · exact absurd (Quantity.ext same) differs
  · exact exists_increase adjustable.within surplus (room item hitem purchased bought)

/-! ## All the way -/

/-- How far what was bought of an item is from the demand, in hundredths. -/
def distanceOf (book : OrderBook) (item : ShoppingItem) : Nat :=
  match item.bought? with
  | none => 0
  | some purchased => (purchased - book.demand item.product).hundredths.natAbs

def distance (book : OrderBook) : Nat := (book.items.map book.distanceOf).sum

theorem CanMove.distanceOf_lt (moves : book.CanMove limits item.product purchased b quantity)
    (bought : item.bought? = some purchased)
    (demand : (after.demand item.product).hundredths =
      (book.demand item.product).hundredths - b.quantity.hundredths + quantity.hundredths) :
    after.distanceOf item < book.distanceOf item := by
  unfold distanceOf
  simp only [bought]
  have hbounds := of_checkStep moves.step
  have hdiffers := moves.differs
  simp only [Quantity.lt_def, Quantity.le_def, Quantity.hundredths_sub, Quantity.hundredths_add,
    Quantity.hundredths_zero] at hbounds ⊢
  omega

theorem distance_lt_of_distanceOf_lt (list : IsSoundList book.items)
    (items : after.items = book.items) (hitem : item ∈ book.items)
    (others : ∀ other, other ≠ item.product → after.demand other = book.demand other)
    (closer : after.distanceOf item < book.distanceOf item) : after.distance < book.distance := by
  unfold distance
  rw [items]
  refine List.sum_lt_sum _ _ (fun other hother => ?_) ⟨item, hitem, closer⟩
  by_cases hproduct : other.product = item.product
  · have hsame := list.find? hother
    rw [hproduct, list.find? hitem] at hsame
    obtain rfl := Option.some.inj hsame
    exact closer.le
  · unfold distanceOf
    rw [others _ hproduct]

theorem exists_unbalanced (unbalanced : book.imbalances ≠ []) :
    ∃ item ∈ book.items, ∃ purchased,
      item.bought? = some purchased ∧ purchased ≠ book.demand item.product := by
  by_contra hall
  push Not at hall
  exact unbalanced (imbalances_eq_nil_iff.mpr hall)

theorem exists_closer (adjustable : book.IsAdjustable limits) (room : book.HasRoom limits)
    (unbalanced : book.imbalances ≠ []) :
    ∃ after, book.Reconciles limits after ∧ after.distance < book.distance := by
  obtain ⟨item, hitem, purchased, bought, differs⟩ := exists_unbalanced unbalanced
  obtain ⟨b, quantity, moves⟩ := exists_canMove adjustable room hitem bought differs
  have hbought : book.purchasedQuantity item.product = .ok purchased :=
    purchasedQuantity_eq_ok_iff.mpr ⟨item, adjustable.list.find? hitem, bought⟩
  obtain ⟨after, hreconciles, hothers, hdemand⟩ :=
    reconciles_of_canMove adjustable.oneEach moves hbought
  refine ⟨after, hreconciles, ?_⟩
  apply distance_lt_of_distanceOf_lt adjustable.list hreconciles.items hitem hothers
  exact moves.distanceOf_lt bought hdemand

theorem exists_balanced (adjustable : book.IsAdjustable limits) (room : book.HasRoom limits) :
    ∃ after, Relation.ReflTransGen (Reconciles limits) book after ∧ after.imbalances = [] := by
  -- Every change brings the book closer to the balance, so some change is the last.
  induction hdistance : book.distance using Nat.strong_induction_on generalizing book with
  | _ distance ih =>
    by_cases balanced : book.imbalances = []
    · exact ⟨book, .refl, balanced⟩
    · obtain ⟨next, hstep, hcloser⟩ := exists_closer adjustable room balanced
      obtain ⟨after, hsteps, hafter⟩ :=
        ih _ (hdistance ▸ hcloser) (hstep.isAdjustable adjustable) (hstep.hasRoom room) rfl
      exact ⟨after, .head hstep hsteps, hafter⟩

theorem hasRoom_of_reconciles (h : Relation.ReflTransGen (Reconciles limits) book after)
    (adjustable : book.IsAdjustable limits) (balanced : after.imbalances = []) :
    book.HasRoom limits := by
  -- From the last book, where what was bought is the demand, back to the first.
  induction h using Relation.ReflTransGen.head_induction_on with
  | refl =>
    intro item hitem purchased hpurchased
    rw [imbalances_eq_nil_iff.mp balanced item hitem purchased hpurchased]
    exact Int.le_add_of_nonneg_right (headroom_nonneg adjustable.within _)
  | head hstep _ ih =>
    intro item hitem purchased hpurchased
    have hlater := ih (hstep.isAdjustable adjustable)
    rw [← hstep.demand_add_headroom]
    exact hlater item (by rw [hstep.items]; exact hitem) purchased hpurchased

theorem hasRoom_iff (adjustable : book.IsAdjustable limits) :
    book.HasRoom limits ↔
      ∀ item ∈ book.items, item.isPurchased = true →
        ∀ purchased, item.purchasedQuantity = some purchased →
          0 < purchased - book.demand item.product →
            purchased - book.demand item.product ≤ book.headroom limits item.product := by
  constructor
  · intro room item hitem hpurchased purchased hquantity _
    have hroom := room item hitem purchased
      (ShoppingItem.bought?_eq_some_iff.mpr ⟨hpurchased, hquantity⟩)
    simp only [Quantity.le_def, Quantity.hundredths_sub]
    omega
  · intro hall item hitem purchased hbought
    obtain ⟨hpurchased, hquantity⟩ := ShoppingItem.bought?_eq_some_iff.mp hbought
    have hsurplus := hall item hitem hpurchased purchased hquantity
    have hnonneg := headroom_nonneg adjustable.within item.product
    simp only [Quantity.le_def, Quantity.lt_def, Quantity.hundredths_sub,
      Quantity.hundredths_zero] at hsurplus
    omega

theorem Reachable.isAdjustable (h : book.Reachable limits)
    (adjusting : book.run.stage = .adjusting) : book.IsAdjustable limits := by
  have hbefore : book.run.stage.isBeforeHandout = true := by
    rw [adjusting]
    rfl
  exact ⟨h.isConsistent.list, (h.isConsistent.waiting hbefore).oneEach, h.isWithin.bids hbefore,
    h.isWithin.purchases⟩

theorem exists_imbalance_of_surplus {item : ShoppingItem} {purchased : Quantity}
    (hitem : item ∈ book.items) (hbought : item.bought? = some purchased)
    (surplus : 0 < purchased - book.demand item.product) :
    ∃ imbalance ∈ book.imbalances, imbalance.isShortage = false := by
  have hne : purchased ≠ book.demand item.product := by
    intro heq
    rw [heq, Quantity.lt_def] at surplus
    simp at surplus
  refine ⟨⟨item.product, book.demand item.product, purchased⟩,
    List.mem_filterMap.mpr ⟨item, hitem, ?_⟩, ?_⟩
  · simp [imbalanceOf?, hbought, hne]
  · exact decide_eq_false (Int.lt_asymm surplus)

end OrderBook

/-- Let a stored run be adjusting. Its bidders can bring it into balance, changing one bid after the
other, exactly if no surplus exceeds what the committed bids on the product may still ask for. In
particular they can if every imbalance is a shortage. -/
theorem adjusting_reconcilable_iff {terms : Terms} {desk : Desk} {run : RunId} {book : OrderBook}
    (h : desk.Reachable terms) (finds : desk.repository.store.find? run = some book)
    (adjusting : book.run.stage = .adjusting) :
    ((∃ after, Relation.ReflTransGen (OrderBook.Reconciles terms.limits) book after ∧
        after.checkBalanced = .ok ()) ↔
      ∀ item ∈ book.items, item.isPurchased = true →
        ∀ purchased, item.purchasedQuantity = some purchased →
          0 < purchased - book.demand item.product →
            purchased - book.demand item.product ≤ book.headroom terms.limits item.product) ∧
      ((∀ imbalance ∈ book.imbalances, imbalance.isShortage = true) →
        ∃ after, Relation.ReflTransGen (OrderBook.Reconciles terms.limits) book after ∧
          after.checkBalanced = .ok ()) := by
  have adjustable := (h.book (Store.mem_of_find? finds)).isAdjustable adjusting
  have hiff : (∃ after, Relation.ReflTransGen (OrderBook.Reconciles terms.limits) book after ∧
      after.checkBalanced = .ok ()) ↔ book.HasRoom terms.limits := by
    simp only [OrderBook.checkBalanced_eq_ok_iff]
    constructor
    · rintro ⟨after, hsteps, balanced⟩
      exact OrderBook.hasRoom_of_reconciles hsteps adjustable balanced
    · exact OrderBook.exists_balanced adjustable
  rw [hiff]
  refine ⟨OrderBook.hasRoom_iff adjustable, fun shortages => ?_⟩
  refine (OrderBook.hasRoom_iff adjustable).mpr ?_
  intro item hitem hpurchased purchased hquantity surplus
  obtain ⟨imbalance, himbalance, hshortage⟩ := OrderBook.exists_imbalance_of_surplus hitem
    (by rw [ShoppingItem.bought?, hpurchased]; exact hquantity) surplus
  rw [shortages imbalance himbalance] at hshortage
  cases hshortage

/-- Five were bought of six. The two can come to an agreement. -/
theorem adjusting_reconcilable_in_trip :
    ∃ book after : OrderBook,
      (Desk.opened.takeAll Desk.tripTerms Desk.tripTurns).repository.store.find? ⟨1⟩ = some book ∧
        book.run.stage = .adjusting ∧ book.imbalances = [⟨⟨1⟩, .units 6, .units 5⟩] ∧
        Relation.ReflTransGen (OrderBook.Reconciles Desk.tripTerms.limits) book after ∧
        after.checkBalanced = .ok () := by
  have hfound : ((Desk.opened.takeAll Desk.tripTerms Desk.tripTurns).repository.store.find?
      ⟨1⟩).any (fun b => b.run.stage = .adjusting ∧
        b.imbalances = [⟨⟨1⟩, .units 6, .units 5⟩]) = true := by
    decide +kernel
  obtain ⟨book, finds, hbook⟩ := (Option.any_eq_true _ _).mp hfound
  simp only [decide_eq_true_eq] at hbook
  obtain ⟨adjusting, himbalances⟩ := hbook
  have hshortages : ∀ imbalance ∈ book.imbalances, imbalance.isShortage = true := by
    rw [himbalances]
    decide
  obtain ⟨after, hsteps, balanced⟩ :=
    (adjusting_reconcilable_iff ⟨Desk.tripTurns, rfl⟩ finds adjusting).2 hshortages
  exact ⟨book, after, finds, adjusting, himbalances, hsteps, balanced⟩

end BuyingClub
