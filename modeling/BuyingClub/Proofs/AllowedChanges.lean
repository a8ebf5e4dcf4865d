import BuyingClub.Proofs.BidChanges
import BuyingClub.Proofs.Checked.Balance

/-!
# Changes that adjusting allows

While a run is adjusting, a committed bid may change exactly if that leaves the total of its product
between what it was and what was bought.
-/

namespace BuyingClub

/-- Whether a quantity lies between two others, of which either may be the greater one. -/
def Quantity.IsBetween (q a b : Quantity) : Prop := min a b ≤ q ∧ q ≤ max a b

theorem Quantity.isBetween_iff {q a b : Quantity} :
    q.IsBetween a b ↔
      min a.hundredths b.hundredths ≤ q.hundredths ∧
        q.hundredths ≤ max a.hundredths b.hundredths := by
  unfold IsBetween
  rw [le_def, le_def, hundredths_min, hundredths_max]

namespace OrderBook

variable {book : OrderBook} {participation : ParticipationId} {product : ProductId}
  {quantity : Quantity} {interestedOnly : Bool}

/-- The book once this participation asks for that quantity of the product. -/
def withQuantity (book : OrderBook) (participation : ParticipationId) (product : ProductId)
    (quantity : Quantity) : OrderBook :=
  { book with bids := updateFirst (·.isOf participation product) ({ · with quantity }) book.bids }

theorem hundredths_demand_withQuantity {b : Bid}
    (finds : book.bidOf? participation product = some b) (other : ProductId) :
    ((book.withQuantity participation product quantity).demand other).hundredths =
      (book.demand other).hundredths - b.towards other +
        ({ b with quantity } : Bid).towards other := by
  rw [hundredths_demand, hundredths_demand]
  exact sum_updateFirst _ finds

theorem demand_withQuantity {b : Bid} (finds : book.bidOf? participation product = some b)
    (committed : b.interestedOnly = false) :
    (book.withQuantity participation product quantity).demand product =
      book.demand product - b.quantity + quantity := by
  have hproduct := (isOf_of_bidOf? finds).2
  have hcounts : b.countsFor product = true := by
    simp [Bid.countsFor, Bid.isCommitted, hproduct, committed]
  have hcounts' : ({ b with quantity } : Bid).countsFor product = true := hcounts
  ext
  rw [hundredths_demand_withQuantity finds, Bid.towards_of_countsFor hcounts,
    Bid.towards_of_countsFor hcounts', Quantity.hundredths_add, Quantity.hundredths_sub]

theorem demand_placeBid_of_same_interest {limits : Limits} {request : BidRequest} {now : Instant}
    {counters : Counters} {placed : PlacedBid} {b : Bid}
    (finds : book.bidOf? request.participation request.product = some b)
    (same : b.interestedOnly = request.interestedOnly)
    (places : book.placeBid limits request now counters = .ok placed) (other : ProductId) :
    placed.book.demand other =
      (book.withQuantity request.participation request.product request.quantity).demand other := by
  obtain ⟨_, ⟨previous, hprevious, rfl⟩ | ⟨hnone, _⟩⟩ := placeBid_eq_ok_iff.mp places
  · rw [finds] at hprevious
    cases hprevious
    have hproduct := (isOf_of_bidOf? finds).2
    ext
    rw [demand_of_revise finds, Quantity.hundredths_sub, Quantity.hundredths_add,
      hundredths_demand_withQuantity finds, Bid.hundredths_asksFor,
      BidRequest.hundredths_asksFor (b := { b with quantity := request.quantity }) other hproduct
        rfl same]
    omega
  · rw [finds] at hnone
    cases hnone

theorem step_iff_isBetween {total purchased current : Quantity} (asks : 0 ≤ quantity) :
    quantity = current ∨ checkStep product (purchased - total) current quantity = .ok () ↔
      (total - current + quantity).IsBetween total purchased := by
  have habs : (purchased - total).abs.hundredths =
      (purchased.hundredths - total.hundredths).natAbs := rfl
  have hfloor := Quantity.hundredths_max (current - (purchased - total).abs) 0
  rw [checkStep_eq_ok_iff, Quantity.isBetween_iff, Quantity.ext_iff]
  simp only [Quantity.lt_def, Quantity.le_def, Quantity.hundredths_add, Quantity.hundredths_sub,
    Quantity.hundredths_zero] at asks hfloor ⊢
  omega

theorem bidOf?_of_mem {b : Bid}
    (oneEach : (book.bids.map fun b => (b.participation, b.product)).Nodup) (hb : b ∈ book.bids)
    (isOf : b.isOf participation product = true) : book.bidOf? participation product = some b := by
  obtain ⟨rfl, rfl⟩ := Bid.isOf_iff.mp isOf
  exact (OneBidEach.of_nodup oneEach).find? hb

theorem checkChange_iff_isBetween
    (oneEach : (book.bids.map fun b => (b.participation, b.product)).Nodup)
    (listedOnce : (book.items.map (·.product)).Nodup) (asks : 0 ≤ quantity) :
    book.checkChange participation product quantity interestedOnly = .ok () ↔
      ∃ item ∈ book.items, item.product = product ∧
        ∃ purchased, item.bought? = some purchased ∧
          ∃ b ∈ book.bids, b.isOf participation product = true ∧
            b.interestedOnly = interestedOnly ∧
              (b.interestedOnly = true ∨
                ((book.withQuantity participation product quantity).demand product).IsBetween
                  (book.demand product) purchased) := by
  have hstep {b : Bid} {purchased : Quantity}
      (finds : book.bidOf? participation product = some b) :
      (b.interestedOnly = true ∨ quantity = b.quantity ∨
          checkStep product (purchased - book.demand product) b.quantity quantity = .ok ()) ↔
        (b.interestedOnly = true ∨
          ((book.withQuantity participation product quantity).demand product).IsBetween
            (book.demand product) purchased) := by
    cases hinterest : b.interestedOnly with
    | true => simp
    | false => rw [step_iff_isBetween asks, demand_withQuantity finds hinterest]
  rw [checkChange_eq_ok_iff]
  constructor
  · rintro ⟨purchased, b, hpurchased, finds, hflag, hallowed⟩
    obtain ⟨item, hitem, hbought⟩ := purchasedQuantity_eq_ok_iff.mp hpurchased
    have hisOf := Bid.isOf_iff.mpr (isOf_of_bidOf? finds)
    exact ⟨item, mem_of_itemFor? hitem, product_of_itemFor? hitem, purchased, hbought, b,
      List.mem_of_find?_eq_some finds, hisOf, hflag, (hstep finds).mp hallowed⟩
  · rintro ⟨item, hitem, rfl, purchased, hbought, b, hb, hisOf, hflag, hallowed⟩
    have hlisted : book.itemFor? item.product = some item := find?_of_nodup listedOnce hitem
    have finds := bidOf?_of_mem oneEach hb hisOf
    exact ⟨purchased, b, purchasedQuantity_eq_ok_iff.mpr ⟨item, hlisted, hbought⟩, finds, hflag,
      (hstep finds).mpr hallowed⟩

theorem quantity_eq_of_balanced {b : Bid} (finds : book.bidOf? participation product = some b)
    (committed : b.interestedOnly = false)
    (balanced : book.purchasedQuantity product = .ok (book.demand product))
    (allowed : book.checkChange participation product quantity interestedOnly = .ok ()) :
    quantity = b.quantity := by
  obtain ⟨purchased, current, hpurchased, hcurrent, _, hstep⟩ := checkChange_eq_ok_iff.mp allowed
  rw [balanced] at hpurchased
  cases hpurchased
  rw [finds] at hcurrent
  cases hcurrent
  rcases hstep with hinterest | hsame | hstep
  · rw [committed] at hinterest
    cases hinterest
  · exact hsame
  · have hbounds := checkStep_eq_ok_iff.mp hstep
    simp only [Quantity.lt_def, Quantity.hundredths_sub, Quantity.hundredths_zero] at hbounds
    omega

end OrderBook

/-- Let nobody bid twice on a product and nothing be listed twice. A change of a bid to a quantity
that is not negative is allowed if and only if the product was bought, there is such a bid with just
this interest, and it is mere interest or the total of the product, once the bid is changed, lies
between the total before and what was bought. A committed bid on a product that is balanced can only
stay as it is. Placing the bid then leads to the totals in question. In 64 bits the check comes to
the same, as long as what is asked for and what was bought fit. -/
theorem change_allowed_iff_between {book : OrderBook} {participation : ParticipationId}
    {product : ProductId} {quantity : Quantity} {interestedOnly : Bool}
    (oneEach : (book.bids.map fun b => (b.participation, b.product)).Nodup)
    (listedOnce : (book.items.map (·.product)).Nodup) (asks : 0 ≤ quantity) :
    (book.checkChange participation product quantity interestedOnly = .ok () ↔
      ∃ item ∈ book.items, item.product = product ∧
        ∃ purchased, item.bought? = some purchased ∧
          ∃ b ∈ book.bids, b.isOf participation product = true ∧
            b.interestedOnly = interestedOnly ∧
              (b.interestedOnly = true ∨
                ((book.withQuantity participation product quantity).demand product).IsBetween
                  (book.demand product) purchased)) ∧
    (book.checkChange participation product quantity interestedOnly = .ok () →
      (∀ item ∈ book.items, item.product = product → item.bought? = some (book.demand product) →
        ∀ b ∈ book.bids, b.isOf participation product = true → b.interestedOnly = false →
          quantity = b.quantity) ∧
      ∀ limits comment now counters placed,
        book.placeBid limits ⟨participation, product, quantity, interestedOnly, comment⟩ now
            counters = .ok placed →
          ∀ other, placed.book.demand other =
            (book.withQuantity participation product quantity).demand other) ∧
    (book.AmountsFit →
      book.checkChange? participation product quantity interestedOnly =
        some (book.checkChange participation product quantity interestedOnly)) := by
  refine ⟨OrderBook.checkChange_iff_isBetween oneEach listedOnce asks, fun allowed => ⟨?_, ?_⟩,
    fun fit => fit.checkChange?_eq participation product quantity interestedOnly⟩
  · rintro item hitem rfl hbalanced b hb hisOf hcommitted
    refine OrderBook.quantity_eq_of_balanced (OrderBook.bidOf?_of_mem oneEach hb hisOf) hcommitted
      ?_ allowed
    exact OrderBook.purchasedQuantity_eq_ok_iff.mpr
      ⟨item, find?_of_nodup listedOnce hitem, hbalanced⟩
  · intro limits comment now counters placed places other
    obtain ⟨_, b, _, finds, hflag, _⟩ := OrderBook.checkChange_eq_ok_iff.mp allowed
    exact OrderBook.demand_placeBid_of_same_interest finds hflag places other

/-- Five were bought of six. The second one may ask for a half less, and then a half is missing. -/
theorem change_allowed_iff_between_in_trip :
    ∃ book,
      (Desk.opened.takeAll Desk.tripTerms Desk.tripTurns).repository.store.find? ⟨1⟩ = some book ∧
        book.demand ⟨1⟩ = .units 6 ∧
        (book.withQuantity ⟨2⟩ ⟨1⟩ ⟨350⟩).demand ⟨1⟩ = ⟨550⟩ ∧
        book.checkChange ⟨2⟩ ⟨1⟩ ⟨350⟩ false = .ok () := by
  have hfound : ((Desk.opened.takeAll Desk.tripTerms Desk.tripTurns).repository.store.find?
      ⟨1⟩).any (fun book =>
        (book.bids.map fun b => (b.participation, b.product)).Nodup ∧
        (book.items.map (·.product)).Nodup ∧
        (∃ item ∈ book.items, item.product = ⟨1⟩ ∧ item.bought? = some (.units 5)) ∧
        (∃ b ∈ book.bids, b.isOf ⟨2⟩ ⟨1⟩ = true ∧ b.interestedOnly = false) ∧
        book.demand ⟨1⟩ = .units 6 ∧
        (book.withQuantity ⟨2⟩ ⟨1⟩ ⟨350⟩).demand ⟨1⟩ = ⟨550⟩) = true := by
    decide +kernel
  obtain ⟨book, finds, hfound⟩ := (Option.any_eq_true _ _).mp hfound
  obtain ⟨oneEach, listedOnce, ⟨item, hitem, hproduct, hbought⟩, ⟨b, hb, hisOf, hcommitted⟩,
    hdemand, hafter⟩ := of_decide_eq_true hfound
  refine ⟨book, finds, hdemand, hafter, ?_⟩
  refine (change_allowed_iff_between oneEach listedOnce (by decide)).1.mpr
    ⟨item, hitem, hproduct, .units 5, hbought, b, hb, hisOf, hcommitted, .inr ?_⟩
  rw [hdemand, hafter, Quantity.isBetween_iff]
  decide

end BuyingClub
