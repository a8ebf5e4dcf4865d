import BuyingClub.Proofs.Limits.Books
import BuyingClub.Proofs.Reconciliation

/-!
# How much a book asks for

Neither a bid nor a committed total nor a line of the list is ever beyond what all participants
together may bid on a product, or what may be bought of it. A handout can take a bid beyond its own
limit, but no total beyond what was bought.
-/

namespace BuyingClub

/-- The most that a book can ask for of a product, in hundredths. -/
def Limits.mostAsked (limits : Limits) : Int :=
  max ((max 1 limits.maxMembers : Nat) * limits.maxBidQuantity.hundredths)
    limits.maxPurchaseQuantity.hundredths

/-- No bid is negative, and neither interest nor a committed total is beyond the most. -/
structure BidsWithin (most : Int) (bids : List Bid) : Prop where
  nonneg : ∀ b ∈ bids, 0 ≤ b.quantity
  interest : ∀ b ∈ bids, b.interestedOnly = true → b.quantity.hundredths ≤ most
  totals : ∀ product, committedTotal bids product ≤ most

theorem BidsWithin.quantity_le {most : Int} {bids : List Bid} (h : BidsWithin most bids) {b : Bid}
    (hb : b ∈ bids) : b.quantity.hundredths ≤ most := by
  cases hinterest : b.interestedOnly with
  | true => exact h.interest b hb hinterest
  | false =>
    have hcounts : b.countsFor b.product = true := by
      simp [Bid.countsFor, Bid.isCommitted, hinterest]
    exact Int.le_trans (le_committedTotal h.nonneg hb hcounts) (h.totals b.product)

def ShoppingItem.AsksWithin (most : Int) (item : ShoppingItem) : Prop :=
  0 ≤ item.requestedQuantity.hundredths ∧ item.requestedQuantity.hundredths ≤ most

namespace OrderBook

structure AsksWithin (most : Int) (book : OrderBook) : Prop where
  bids : BidsWithin most book.bids
  items : ∀ item ∈ book.items, item.AsksWithin most

variable {limits : Limits} {book after : OrderBook} {most : Int}

/-! ## Handing out -/

section Handout

variable {leader : ParticipationId} {now : Instant} {bought : Purchase} {counters : Counters}

theorem AsksWithin.setRequested (h : book.AsksWithin most) {product : ProductId}
    {requested : Quantity} (hlow : 0 ≤ requested.hundredths) (hhigh : requested.hundredths ≤ most) :
    ∀ item ∈ (book.setRequested product requested).items, item.AsksWithin most := by
  intro item hitem
  rcases mem_updateFirst hitem with hitem | ⟨_, _, rfl⟩
  · exact h.items item hitem
  · exact ⟨hlow, hhigh⟩

theorem AsksWithin.handOutProduct (h : book.AsksWithin most) (hlow : 0 ≤ bought.quantity)
    (hhigh : bought.quantity.hundredths ≤ most) :
    (OrderBook.handOutProduct leader now bought book counters).2.1.AsksWithin most where
  bids := {
    nonneg := handOutProduct_nonneg h.bids.nonneg
    interest := by
      -- Whoever takes a surplus is more than interested.
      refine handOutProduct_forall (fun _ _ _ => Iff.rfl) (fun _ _ _ => ⟨?_, ?_⟩) h.bids.interest
      · exact fun _ _ _ => nofun
      · exact fun _ => nofun
    totals := committedTotal_handOutProduct_le h.bids.totals hhigh }
  items := by
    unfold OrderBook.handOutProduct
    dsimp only
    split
    · apply AsksWithin.setRequested h
      · rw [hundredths_demand]
        exact committedTotal_nonneg h.bids.nonneg bought.product
      · rw [hundredths_demand]
        exact h.bids.totals bought.product
    · split
      · exact AsksWithin.setRequested h hlow hhigh
      · exact h.items

theorem AsksWithin.handOutAll {purchases : List Purchase} (h : book.AsksWithin most)
    (fits : ∀ bought ∈ purchases, 0 ≤ bought.quantity ∧ bought.quantity.hundredths ≤ most) :
    (OrderBook.handOutAll leader now purchases book counters).2.1.AsksWithin most := by
  induction purchases generalizing book counters with
  | nil => exact h
  | cons bought rest ih =>
    obtain ⟨⟨hlow, hhigh⟩, hrest⟩ := List.forall_mem_cons.mp fits
    rw [handOutAll_cons]
    exact ih (h.handOutProduct hlow hhigh) hrest

theorem AsksWithin.handOut {counters' : Counters} {allocations : List Allocation}
    (h : book.AsksWithin most)
    (bought : ∀ item ∈ book.items, ∀ quantity, item.bought? = some quantity →
      0 ≤ quantity ∧ quantity.hundredths ≤ most)
    (handsOut : book.handOut now counters = .ok (allocations, after, counters')) :
    after.AsksWithin most := by
  obtain ⟨leader, _, hall⟩ := handOut_eq_ok_iff.mp handsOut
  have hwithin : (OrderBook.handOutAll leader.id now book.purchases book counters).2.1.AsksWithin
      most := by
    refine h.handOutAll fun purchase hpurchase => ?_
    obtain ⟨item, hitem, quantity, hquantity, _, rfl⟩ := mem_purchases_iff.mp hpurchase
    exact bought item hitem quantity hquantity
  rw [hall] at hwithin
  exact hwithin

end Handout

/-! ## Before the handout -/

theorem IsTidy.length_countsFor_le (h : book.IsTidy) (product : ProductId) :
    (book.bids.filter (·.countsFor product)).length ≤ book.participations.length := by
  rw [← List.length_map Participation.id]
  -- Each of these bids is of another participant.
  apply h.length_filter_le
  · intro b c hb hc hparticipation
    exact ⟨hparticipation,
      (Bid.product_of_countsFor hb).trans (Bid.product_of_countsFor hc).symm⟩
  · exact h.bidders

theorem Reachable.bidsWithin_of_isBeforeHandout (h : book.Reachable limits)
    (hbid : 0 ≤ limits.maxBidQuantity) (hstage : book.run.stage.isBeforeHandout = true) :
    BidsWithin limits.mostAsked book.bids := by
  have hkeeps := h.keepsLimits
  have hwithin (b : Bid) (hb : b ∈ book.bids) :
      0 ≤ b.quantity ∧ b.quantity ≤ limits.maxBidQuantity :=
    Limits.checkBid_eq_ok_iff.mp (h.isWithin.bids hstage b hb)
  rw [Quantity.le_def, Quantity.hundredths_zero] at hbid
  have htotal (product : ProductId) : committedTotal book.bids product ≤ limits.mostAsked := by
    have hcount : ((book.bids.filter (·.countsFor product)).length : Int) ≤
        (max 1 limits.maxMembers : Nat) := by
      have hlength := hkeeps.tidy.length_countsFor_le product
      have hparticipations := hkeeps.participations
      omega
    have hsum := List.sum_le_card_nsmul
      ((book.bids.filter (·.countsFor product)).map (·.quantity.hundredths))
      limits.maxBidQuantity.hundredths fun n hn => by
        obtain ⟨b, hb, rfl⟩ := List.mem_map.mp hn
        exact (hwithin b (List.mem_filter.mp hb).1).2
    rw [List.length_map, nsmul_eq_mul, ← hundredths_demand_filter, hundredths_demand] at hsum
    have hlargest := Int.mul_le_mul_of_nonneg_right hcount hbid
    exact Int.le_trans hsum (Int.le_trans hlargest (Int.le_max_left ..))
  refine ⟨fun b hb => (hwithin b hb).1, fun b hb _ => ?_, htotal⟩
  have hone : limits.maxBidQuantity.hundredths ≤
      (max 1 limits.maxMembers : Nat) * limits.maxBidQuantity.hundredths :=
    le_mul_of_one_le_left hbid (by omega)
  exact Int.le_trans (hwithin b hb).2 (Int.le_trans hone (Int.le_max_left ..))

end OrderBook

/-! ## Commands -/

namespace Draft

variable {limits : Limits} {d after : Draft} {user : UserId} {action : Action} {reply : Reply}
  {most : Int}

theorem Outcome.bidsWithin (h : d.Outcome limits user action after reply)
    (early : after.stage.isBeforeHandout = true → BidsWithin most after.book.bids)
    (before : d.book.AsksWithin most)
    (bought : ∀ item ∈ d.book.items, ∀ quantity, item.bought? = some quantity →
      0 ≤ quantity ∧ quantity.hundredths ≤ most) : BidsWithin most after.book.bids := by
  have hchanges := h.changesBids
  generalize after.book.bids = bids, reply.allocations = allocations at early hchanges ⊢
  cases hchanges with
  | stays => exact before.bids
  | places isOpen staysOpen => exact early (Stage.isBeforeHandout_of_isOpen staysOpen)
  | retracts isOpen staysOpen => exact early (Stage.isBeforeHandout_of_isOpen staysOpen)
  | handsOut _ distributes handsOut => exact (before.handOut bought handsOut).bids
  | marks isDistributing finds =>
    have hbids := before.bids
    have hmem := List.mem_of_find?_eq_some finds
    refine ⟨fun c hc => ?_, fun c hc => ?_, fun product => ?_⟩
    · rcases mem_updateFirst hc with hc | ⟨_, _, rfl⟩
      · exact hbids.nonneg c hc
      · have hmarked := hbids.nonneg _ hmem
        exact hmarked
    · rcases mem_updateFirst hc with hc | ⟨_, _, rfl⟩
      · exact hbids.interest c hc
      · have hmarked := hbids.interest _ hmem
        exact hmarked
    · rw [committedTotal_of_map (map_updateFirst_of_find? (·.towards product) finds rfl)]
      exact hbids.totals product

theorem Outcome.itemsWithin (h : d.Outcome limits user action after reply)
    (before : d.book.AsksWithin most)
    (bought : ∀ item ∈ d.book.items, ∀ quantity, item.bought? = some quantity →
      0 ≤ quantity ∧ quantity.hundredths ≤ most) :
    ∀ item ∈ after.book.items, item.AsksWithin most := by
  have hchanges := h.changesItems
  generalize after.book.items = items at hchanges ⊢
  cases hchanges with
  | stays => exact before.items
  | lists empty =>
    intro item hitem
    have hdemand := (List.mem_filter.mp (mem_of_mem_itemsToBuy hitem)).1
    unfold ShoppingItem.AsksWithin
    rw [← OrderBook.demand_of_mem_demands hdemand, OrderBook.hundredths_demand]
    exact ⟨committedTotal_nonneg before.bids.nonneg _, before.bids.totals _⟩
  | buys reads finds =>
    intro item hitem
    rcases mem_updateFirst hitem with hitem | ⟨_, _, rfl⟩
    · exact before.items item hitem
    · have hknown := before.items _ (OrderBook.mem_of_itemFor? finds)
      exact hknown
  | returns finds wasBought =>
    intro item hitem
    rcases mem_updateFirst hitem with hitem | ⟨old, hold, rfl⟩
    · exact before.items item hitem
    · have hknown := before.items _ (List.mem_of_find?_eq_some hold)
      exact hknown
  | handsOut noPurchase handsOut => exact (before.handOut bought handsOut).items

end Draft

/-! ## Every reachable book -/

theorem OrderBook.Reachable.bought_le {limits : Limits} {book : OrderBook}
    (h : book.Reachable limits) :
    ∀ item ∈ book.items, ∀ quantity, item.bought? = some quantity →
      0 ≤ quantity ∧ quantity.hundredths ≤ limits.mostAsked := by
  intro item hitem quantity hbought
  obtain ⟨hlow, hhigh⟩ := (h.keepsLimits.items item hitem).quantity quantity
    (ShoppingItem.bought?_eq_some_iff.mp hbought).2
  exact ⟨hlow, Int.le_trans hhigh (Int.le_max_right ..)⟩

theorem OrderBook.Reachable.asksWithin {limits : Limits} {book : OrderBook}
    (h : book.Reachable limits) (hbid : 0 ≤ limits.maxBidQuantity)
    (hpurchase : 0 ≤ limits.maxPurchaseQuantity) : book.AsksWithin limits.mostAsked := by
  induction h with
  | new isNew =>
    obtain ⟨id, group, store, leader, participation, now, rfl⟩ := isNew
    exact ⟨⟨List.forall_mem_nil _, List.forall_mem_nil _,
      fun _ => Int.le_trans hpurchase (Int.le_max_right ..)⟩, List.forall_mem_nil _⟩
  | @changed book after before changes ih =>
    have hafter := before.changed changes
    obtain ⟨counters, now, user, action, d, reply, houtcome, rfl⟩ := changes
    exact {
      bids := houtcome.bidsWithin (hafter.bidsWithin_of_isBeforeHandout hbid) ih before.bought_le
      items := houtcome.itemsWithin ih before.bought_le }

end BuyingClub
