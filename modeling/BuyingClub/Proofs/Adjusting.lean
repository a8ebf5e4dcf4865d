import BuyingClub.Proofs.Consistency

/-!
# Adjusting converges

While a run is adjusting, every command leaves the difference between what was bought and what is
asked for as it is, or brings it nearer to zero from the side it is on.
-/

namespace BuyingClub

/-! ## Nearer to zero -/

/-- The second difference is on the same side of zero as the first one, and not farther from it. -/
def Quantity.Approaches (delta later : Quantity) : Prop :=
  later.abs ≤ delta.abs ∧ (0 ≤ delta → 0 ≤ later) ∧ (delta ≤ 0 → later ≤ 0)

theorem Quantity.approaches_iff {delta later : Quantity} :
    delta.Approaches later ↔
      (0 ≤ later.hundredths ∧ later.hundredths ≤ delta.hundredths) ∨
        (later.hundredths ≤ 0 ∧ delta.hundredths ≤ later.hundredths) := by
  have hdelta : delta.abs.hundredths = delta.hundredths.natAbs := rfl
  have hlater : later.abs.hundredths = later.hundredths.natAbs := rfl
  unfold Approaches
  simp only [le_def, hdelta, hlater, hundredths_zero]
  omega

theorem Quantity.Approaches.refl (delta : Quantity) : delta.Approaches delta := by
  rw [approaches_iff]
  omega

theorem Quantity.Approaches.trans {delta between later : Quantity} (h : delta.Approaches between)
    (h' : between.Approaches later) : delta.Approaches later := by
  rw [approaches_iff] at h h' ⊢
  omega

/-! ## Bids and totals -/

namespace OrderBook

variable {book : OrderBook} {participation : ParticipationId} {product : ProductId}

theorem demand_congr {after : OrderBook} (h : after.bids = book.bids) (product : ProductId) :
    after.demand product = book.demand product := by
  unfold demand
  rw [h]

theorem demand_retractBid {bid : Bid} (finds : book.bidOf? participation product = some bid)
    (interest : bid.interestedOnly = true) (other : ProductId) :
    ({ book with bids := book.bids.eraseP (·.isOf participation product) } : OrderBook).demand
      other = book.demand other := by
  have hcounts : bid.countsFor other = false := by simp [Bid.countsFor, Bid.isCommitted, interest]
  ext
  rw [hundredths_demand, hundredths_demand]
  unfold committedTotal
  rw [sum_eraseP _ finds, Bid.towards_of_countsFor_eq_false hcounts]
  omega

theorem committedTotal_revise {request : BidRequest} {bid : Bid} (now : Instant)
    (finds : book.bidOf? request.participation request.product = some bid) (other : ProductId) :
    committedTotal (updateFirst (·.isOf request.participation request.product)
        (request.revise now) book.bids) other =
      committedTotal book.bids other - bid.towards other +
        (request.revise now bid).towards other := by
  unfold committedTotal
  exact sum_updateFirst _ finds

theorem towards_of_product {bid : Bid} (other : ProductId) (hproduct : bid.product = product) :
    bid.towards other =
      if product = other ∧ bid.interestedOnly = false then bid.quantity.hundredths else 0 := by
  unfold Bid.towards Bid.countsFor Bid.isCommitted
  rw [hproduct]
  simp

theorem approaches_of_checkChange {limits : Limits} {request : BidRequest} {now : Instant}
    {counters : Counters} {placed : PlacedBid}
    (fits : book.checkChange request.participation request.product request.quantity
      request.interestedOnly = .ok ())
    (places : book.placeBid limits request now counters = .ok placed) :
    (∀ other, other ≠ request.product → placed.book.demand other = book.demand other) ∧
      ∃ purchased, book.purchasedQuantity request.product = .ok purchased ∧
        (purchased - book.demand request.product).Approaches
          (purchased - placed.book.demand request.product) := by
  obtain ⟨purchased, current, hpurchased, hcurrent, hflag, hstep⟩ :=
    checkChange_eq_ok_iff.mp fits
  obtain ⟨_, ⟨previous, hprevious, rfl⟩ | ⟨hnone, _⟩⟩ := placeBid_eq_ok_iff.mp places
  · rw [hcurrent] at hprevious
    cases hprevious
    have hproduct := (isOf_of_bidOf? hcurrent).2
    have hold := fun other => towards_of_product other hproduct
    have hnew : ∀ other, (request.revise now current).towards other =
        if request.product = other ∧ request.interestedOnly = false then request.quantity.hundredths
        else 0 := fun other => towards_of_product other hproduct
    have htotal := committedTotal_revise now hcurrent
    refine ⟨fun other hother => ?_, purchased, hpurchased, ?_⟩
    · ext
      rw [hundredths_demand, hundredths_demand, htotal, hold, hnew]
      simp [hother.symm]
    · rw [Quantity.approaches_iff]
      simp only [Quantity.hundredths_sub, hundredths_demand, htotal, hold, hnew, true_and]
      rw [hflag]
      cases hinterest : request.interestedOnly with
      | true =>
        -- Mere interest counts for nothing, before as after.
        simp only [Bool.true_eq_false, if_false]
        omega
      | false =>
        simp only [if_true]
        rw [hflag, hinterest] at hstep
        rcases hstep with ⟨⟨⟩⟩ | hquantity | hstep
        · rw [hquantity]
          omega
        · -- The bounds of the step are those of the balance: the total does not cross it.
          have hbounds := of_checkStep hstep
          simp only [Quantity.lt_def, Quantity.le_def, Quantity.hundredths_sub, hundredths_demand,
            Quantity.hundredths_add, Quantity.hundredths_zero] at hbounds
          omega
  · rw [hcurrent] at hnone
    cases hnone

/-- One book of an adjusting run comes later than the other: the list is the same, and the
committed totals are either the same or nearer to what was bought. -/
structure Adjusts (book after : OrderBook) : Prop where
  items : after.items = book.items
  demand : ∀ product, after.demand product = book.demand product ∨
    ∃ purchased, book.purchasedQuantity product = .ok purchased ∧
      (purchased - book.demand product).Approaches (purchased - after.demand product)

theorem Adjusts.refl (book : OrderBook) : book.Adjusts book := ⟨rfl, fun _ => .inl rfl⟩

theorem Adjusts.trans {between after : OrderBook} (h : book.Adjusts between)
    (h' : between.Adjusts after) : book.Adjusts after where
  items := h'.items.trans h.items
  demand product := by
    have hbought : between.purchasedQuantity product = book.purchasedQuantity product := by
      unfold purchasedQuantity itemFor?
      rw [h.items]
    rcases h'.demand product with hsame' | ⟨purchased, hpurchased, happroaches⟩
    · rw [hsame']
      exact h.demand product
    · rw [hbought] at hpurchased
      refine .inr ⟨purchased, hpurchased, ?_⟩
      rcases h.demand product with hsame | ⟨purchased', hpurchased', happroaches'⟩
      · rw [← hsame]
        exact happroaches
      · rw [hpurchased] at hpurchased'
        cases hpurchased'
        exact happroaches'.trans happroaches

end OrderBook

/-! ## Single commands -/

namespace Draft

variable {limits : Limits} {d after : Draft} {user : UserId} {action : Action} {reply : Reply}

theorem Outcome.adjusts (h : d.Outcome limits user action after reply)
    (adjusting : d.stage = .adjusting) (stays : after.stage = .adjusting) :
    d.book.Adjusts after.book := by
  cases h with
  | @bidPlaced product _ _ _ _ _ admitted _ placed admits fits places moves =>
    subst moves
    cases admits with
    | newcomer _ _ _ takesNewcomers => exact absurd adjusting takesNewcomers
    | participant =>
      obtain ⟨hothers, purchased, hpurchased, happroaches⟩ :=
        OrderBook.approaches_of_checkChange (fits adjusting) places
      obtain ⟨_, _, hitems⟩ := OrderBook.placeBid_frame places
      refine ⟨?_, fun other => ?_⟩
      · rw [movedIf_items]
        exact hitems
      · rw [OrderBook.demand_congr (movedIf_bids ..) other]
        by_cases hother : other = product
        · rw [hother]
          exact .inr ⟨purchased, hpurchased, happroaches⟩
        · exact .inl (hothers other hother)
  | bidRetracted isOpen finds fits retracts moves =>
    obtain ⟨hfinds, rfl⟩ := OrderBook.retractBid_eq_ok_iff.mp retracts
    obtain ⟨bid, hbid, hinterest⟩ := OrderBook.checkRetraction_eq_ok_iff.mp (fits adjusting)
    subst moves
    refine ⟨movedIf_items .., fun other => .inl ?_⟩
    rw [OrderBook.demand_congr (movedIf_bids ..) other]
    exact OrderBook.demand_retractBid hbid hinterest other
  | readyToggled isActive finds moves =>
    rw [adjusting] at isActive
    cases isActive
  | helperSet leads isLive finds => exact ⟨rfl, fun _ => .inl rfl⟩
  | purchaseRecorded isShopping mayShop reads finds =>
    rw [adjusting] at isShopping
    cases isShopping
  | purchaseUndone isShopping mayShop finds wasBought =>
    rw [adjusting] at isShopping
    cases isShopping
  | shoppingUnbalanced leads isShopping unbalanced =>
    rw [adjusting] at isShopping
    cases isShopping
  | pickedUp isDistributing mayShop finds hasGoods =>
    rw [adjusting] at isDistributing
    cases isDistributing
  | _ => cases stays

end Draft

/-! ## Runs of commands -/

theorem Stage.isBeforeHandout_eq_false_of_canMove {old new : Stage} (h : old.canMove new = true)
    (hold : old = .adjusting) : new.isBeforeHandout = false := by
  subst hold
  cases new <;> simp_all [canMove, next, isBeforeHandout]

namespace OrderBook

variable {limits : Limits} {book after later : OrderBook}

theorem Changes.isBeforeHandout (h : book.Changes limits after)
    (hafter : after.run.stage.isBeforeHandout = true) : book.run.stage.isBeforeHandout = true := by
  obtain ⟨counters, now, user, action, d, reply, houtcome, rfl⟩ := h
  exact houtcome.isBeforeHandout hafter

theorem Changes.adjusts (h : book.Changes limits after) (adjusting : book.run.stage = .adjusting)
    (hafter : after.run.stage.isBeforeHandout = true) :
    after.run.stage = .adjusting ∧ book.Adjusts after := by
  obtain ⟨counters, now, user, action, d, reply, houtcome, rfl⟩ := h
  have hstays : d.stage = .adjusting := by
    rcases houtcome.stage_cases with hsame | hmove
    · exact hsame.trans adjusting
    · have hfalse : d.book.run.stage.isBeforeHandout = false :=
        Stage.isBeforeHandout_eq_false_of_canMove hmove adjusting
      rw [hfalse] at hafter
      cases hafter
  exact ⟨hstays, houtcome.adjusts adjusting hstays⟩

/-- A run that is adjusting in the end has handed nothing out, so it was adjusting ever since it
was for the first time. -/
theorem adjusts_of_changes (h : Relation.ReflTransGen (Changes limits) book later)
    (stays : later.run.stage = .adjusting) :
    book.run.stage.isBeforeHandout = true ∧
      (book.run.stage = .adjusting → book.Adjusts later) := by
  -- From the first command on, since only the last stage is known to be before the handout.
  induction h using Relation.ReflTransGen.head_induction_on with
  | refl => exact ⟨by rw [stays]; rfl, fun _ => .refl later⟩
  | head hstep _ ih =>
    obtain ⟨hbefore, hrest⟩ := ih
    refine ⟨hstep.isBeforeHandout hbefore, fun hadjusting => ?_⟩
    obtain ⟨hnext, hadjusts⟩ := hstep.adjusts hadjusting hbefore
    exact hadjusts.trans (hrest hnext)

end OrderBook

/-- Let a stored run be adjusting, and adjusting again after any turns at the desk. What was bought
of a product less its committed total has come nearer to zero or stayed, and has not crossed it. The
total of a product of which nothing was bought is the same. -/
theorem adjusting_converges {terms : Terms} {desk : Desk} {run : RunId} {book later : OrderBook}
    {turns : List Desk.Turn} (h : desk.Reachable terms)
    (finds : desk.repository.store.find? run = some book)
    (adjusting : book.run.stage = .adjusting)
    (findsLater : (desk.takeAll terms turns).repository.store.find? run = some later)
    (stays : later.run.stage = .adjusting) :
    later.items = book.items ∧
      (∀ item ∈ book.items, item.isPurchased = true →
        ∃ purchased, item.purchasedQuantity = some purchased ∧
          (purchased - book.demand item.product).Approaches
            (purchased - later.demand item.product)) ∧
      ∀ product, (∀ item ∈ book.items, item.product = product → item.isPurchased = false) →
        later.demand product = book.demand product := by
  obtain ⟨found, hfound, hchanges⟩ := Desk.takeAll_find? h.isUnraced finds turns
  rw [findsLater] at hfound
  cases hfound
  have hlist := (h.book (Store.mem_of_find? finds)).isConsistent.list
  have hadjusts := (OrderBook.adjusts_of_changes hchanges stays).2 adjusting
  refine ⟨hadjusts.items, fun item hitem hpurchased => ?_, fun product hnone => ?_⟩
  · obtain ⟨purchased, _, hquantity, _⟩ := hlist.priced item hitem hpurchased
    have hfinds : book.itemFor? item.product = some item := hlist.find? hitem
    refine ⟨purchased, hquantity, ?_⟩
    rcases hadjusts.demand item.product with hsame | ⟨bought, hbought, happroaches⟩
    · rw [hsame]
      exact .refl _
    · obtain ⟨other, hother, hquantity'⟩ := OrderBook.purchasedQuantity_eq_ok_iff.mp hbought
      rw [hfinds] at hother
      cases hother
      rw [ShoppingItem.bought?, hpurchased, hquantity] at hquantity'
      cases hquantity'
      exact happroaches
  · rcases hadjusts.demand product with hsame | ⟨bought, hbought, _⟩
    · exact hsame
    · obtain ⟨item, hitem, hquantity⟩ := OrderBook.purchasedQuantity_eq_ok_iff.mp hbought
      have hfalse := hnone item (OrderBook.mem_of_itemFor? hitem)
        (OrderBook.product_of_itemFor? hitem)
      rw [ShoppingItem.bought?, hfalse] at hquantity
      cases hquantity

/-- Five were bought of six. The second one asks for a half less, and a half is still missing. -/
theorem adjusting_converges_in_trip :
    ∃ book later : OrderBook,
      book.run.stage = .adjusting ∧ book.demand ⟨1⟩ = .units 6 ∧
        later.run.stage = .adjusting ∧ later.demand ⟨1⟩ = ⟨550⟩ ∧ later.items = book.items := by
  let turns : List Desk.Turn :=
    [Desk.tripTurn 2 (.placeBid ⟨1⟩ ((Binary64.ofInt 7).divNat 2) false none)]
  have hbook : ((Desk.opened.takeAll Desk.tripTerms Desk.tripTurns).repository.store.find?
      ⟨1⟩).any (fun b => b.run.stage = .adjusting ∧ b.demand ⟨1⟩ = .units 6) = true := by
    decide +kernel
  have hlater : (((Desk.opened.takeAll Desk.tripTerms Desk.tripTurns).takeAll Desk.tripTerms
      turns).repository.store.find? ⟨1⟩).any
        (fun b => b.run.stage = .adjusting ∧ b.demand ⟨1⟩ = ⟨550⟩) = true := by
    decide +kernel
  obtain ⟨book, hfind, hbook⟩ := (Option.any_eq_true _ _).mp hbook
  obtain ⟨later, hfindLater, hlater⟩ := (Option.any_eq_true _ _).mp hlater
  simp only [decide_eq_true_eq] at hbook hlater
  have hconverges := adjusting_converges ⟨Desk.tripTurns, rfl⟩ hfind hbook.1 hfindLater hlater.1
  exact ⟨book, later, hbook.1, hbook.2, hlater.1, hlater.2, hconverges.1⟩

end BuyingClub
