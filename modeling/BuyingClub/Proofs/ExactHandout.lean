import BuyingClub.Proofs.Command.Bids
import BuyingClub.Proofs.LeavingAdjusting
import BuyingClub.Proofs.OrderBook.Surplus

/-!
# Exact handouts

While a run is shopping, its list asks for the committed totals. So what is handed out without force
was bought just as it is bid for, and everybody gets what they bid.
-/

namespace BuyingClub

/-! ## Giving everybody their own quantity -/

/-- The bid without what was handed out for it. -/
def Bid.emptied (b : Bid) : Bid :=
  { b with distributedQuantity := none, distributedPrice := none }

theorem Bid.IsEmptyHanded.emptied_eq {b : Bid} (h : b.IsEmptyHanded) : b.emptied = b := by
  unfold Bid.emptied
  rw [← h.quantity, ← h.price]

/-- The bid got what it asks for. -/
def Bid.IsFulfilled (b : Bid) : Prop := b.distributedQuantity = some b.quantity

/-- Gives every committed bid its own quantity, purchase by purchase. -/
def fulfilAll (purchases : List Purchase) (bids : List Bid) : List Bid :=
  purchases.foldl (fun bids bought => fulfil bought bids) bids

section Fulfil

variable {bought : Purchase} {purchases : List Purchase} {bids : List Bid} {product : ProductId}

theorem map_fulfilAll {β : Type} (f : Bid → β)
    (keeps : ∀ b quantity price, f (b.handedOut quantity price) = f b) :
    (fulfilAll purchases bids).map f = bids.map f := by
  induction purchases generalizing bids with
  | nil => rfl
  | cons bought rest ih => exact (ih).trans (map_fulfil f keeps ..)

theorem isFulfilled_of_mem_fulfil {b : Bid} (hb : b ∈ fulfil bought bids)
    (hproduct : b.countsFor product = true)
    (before : product = bought.product ∨
      ∀ c ∈ bids, c.countsFor product = true → c.IsFulfilled) : b.IsFulfilled := by
  obtain ⟨c, hc, rfl⟩ := List.mem_map.mp hb
  split at hproduct
  · rename_i hcounts
    rw [if_pos hcounts]
    rfl
  · rename_i hcounts
    rw [if_neg hcounts]
    rcases before with rfl | before
    · exact absurd hproduct hcounts
    · exact before c hc hproduct

theorem isFulfilled_of_mem_fulfilAll {b : Bid} (hb : b ∈ fulfilAll purchases bids)
    (hproduct : b.countsFor product = true)
    (before : (∃ bought ∈ purchases, product = bought.product) ∨
      ∀ c ∈ bids, c.countsFor product = true → c.IsFulfilled) : b.IsFulfilled := by
  induction purchases generalizing bids with
  | nil =>
    rcases before with ⟨_, hnone, _⟩ | before
    · cases hnone
    · exact before b hb hproduct
  | cons first rest ih =>
    refine ih hb ?_
    rcases before with ⟨bought, hbought, hsame⟩ | before
    · rcases List.mem_cons.mp hbought with rfl | hbought
      · exact .inr fun c hc hcounts => isFulfilled_of_mem_fulfil hc hcounts (.inl hsame)
      · exact .inl ⟨bought, hbought, hsame⟩
    · exact .inr fun c hc hcounts => isFulfilled_of_mem_fulfil hc hcounts (.inr before)

end Fulfil

/-! ## Handing out what is in balance -/

/-- All that was bought goes to those who asked for it. -/
def Purchase.exactAllocation (bought : Purchase) : Allocation :=
  ⟨bought.product, bought.quantity, bought.quantity, .exact⟩

namespace OrderBook

variable {book after : OrderBook} {leader : ParticipationId} {now : Instant}
  {counters counters' : Counters} {allocations : List Allocation}

theorem handOutProduct_of_balanced {bought : Purchase}
    (balanced : book.demand bought.product = bought.quantity) :
    handOutProduct leader now bought book counters =
      (bought.exactAllocation, { book with bids := fulfil bought book.bids }, counters) := by
  have hshort : ¬ bought.quantity < bought.quantity := Int.lt_irrefl _
  have hover : ¬ 0 < bought.quantity - bought.quantity := by
    rw [Quantity.lt_def, Quantity.hundredths_sub, Quantity.hundredths_zero]
    omega
  unfold handOutProduct
  simp only [balanced, if_neg hshort, if_neg hover]
  rfl

theorem handOutAll_of_balanced {purchases : List Purchase}
    (balanced : ∀ bought ∈ purchases, book.demand bought.product = bought.quantity) :
    handOutAll leader now purchases book counters =
      (purchases.map (·.exactAllocation), { book with bids := fulfilAll purchases book.bids },
        counters) := by
  induction purchases generalizing book with
  | nil => rfl
  | cons first rest ih =>
    have hrest : ∀ bought ∈ rest,
        ({ book with bids := fulfil first book.bids } : OrderBook).demand bought.product =
          bought.quantity := by
      intro bought hbought
      rw [← balanced bought (List.mem_cons_of_mem _ hbought)]
      ext
      rw [hundredths_demand, hundredths_demand, committedTotal_fulfil]
    rw [handOutAll_cons, handOutProduct_of_balanced (balanced first (List.mem_cons_self ..))]
    dsimp only
    rw [ih hrest]
    rfl

theorem handOut_of_balanced (balanced : book.imbalances = [])
    (h : book.handOut now counters = .ok (allocations, after, counters')) :
    allocations = book.purchases.map (·.exactAllocation) ∧
      after = { book with bids := fulfilAll book.purchases book.bids } := by
  obtain ⟨leader, _, hall⟩ := handOut_eq_ok_iff.mp h
  have hdemand : ∀ bought ∈ book.purchases, book.demand bought.product = bought.quantity := by
    intro bought hbought
    obtain ⟨item, hitem, quantity, hquantity, _, rfl⟩ := mem_purchases_iff.mp hbought
    exact (imbalances_eq_nil_iff.mp balanced item hitem quantity hquantity).symm
  rw [handOutAll_of_balanced hdemand] at hall
  obtain ⟨hallocations, hrest⟩ := Prod.mk.inj hall
  exact ⟨hallocations.symm, (Prod.mk.inj hrest).1.symm⟩

/-! ## The list while shopping -/

/-- The list asks for the committed totals. -/
def IsListed (book : OrderBook) : Prop :=
  ∀ item ∈ book.items, item.requestedQuantity = book.demand item.product

theorem IsListed.listImbalances_eq (h : book.IsListed) : book.listImbalances = book.imbalances := by
  unfold listImbalances imbalances
  refine List.filterMap_congr fun item hitem => ?_
  rw [h item hitem]

theorem drawUpList_isListed (h : book.drawUpList counters = .ok (after, counters')) :
    after.IsListed := by
  obtain ⟨_, rfl, _⟩ := drawUpList_eq_ok_iff.mp h
  intro item hitem
  have hmem := (List.mem_filter.mp (mem_of_mem_itemsToBuy hitem)).1
  exact (demand_of_mem_demands hmem).symm

theorem IsListed.updateItem {product : ProductId} {item : ShoppingItem}
    {f : ShoppingItem → ShoppingItem} (h : book.IsListed)
    (finds : book.itemFor? product = some item) (product_eq : (f item).product = item.product)
    (requested_eq : (f item).requestedQuantity = item.requestedQuantity) :
    (book.updateItem product f).IsListed := by
  intro other hother
  rcases mem_updateFirst hother with hother | ⟨found, hfound, rfl⟩
  · exact h other hother
  · obtain rfl : found = item := Option.some.inj (hfound.symm.trans finds)
    rw [product_eq, requested_eq]
    exact h found (mem_of_itemFor? finds)

end OrderBook

namespace Draft

variable {limits : Limits} {d after : Draft} {user : UserId} {action : Action} {reply : Reply}

theorem Outcome.isListed (h : d.Outcome limits user action after reply)
    (shopping : after.stage = .shopping)
    (before : d.stage = .shopping → d.book.IsListed) : after.book.IsListed := by
  have hclosed : d.stage.isOpen = false := by
    rcases h.stage_cases with hsame | hmove
    · rw [← hsame, shopping]
      rfl
    · rw [shopping] at hmove
      revert hmove
      cases d.stage <;> decide
  cases h with
  | bidPlaced admits fits places moves =>
    rw [admits.isOpen] at hclosed
    cases hclosed
  | bidRetracted isOpen finds fits retracts moves =>
    rw [isOpen] at hclosed
    cases hclosed
  | readyToggled isActive finds moves =>
    rw [isActive] at hclosed
    cases hclosed
  | helperSet leads isLive finds => exact before shopping
  | shoppingStarted leads allowed drawsUp =>
    have hlisted := OrderBook.drawUpList_isListed drawsUp
    exact fun item hitem => hlisted item hitem
  | purchaseRecorded isShopping mayShop reads finds =>
    have hproduct := OrderBook.product_of_itemFor? finds
    subst hproduct
    exact (before isShopping).updateItem finds rfl rfl
  | purchaseUndone isShopping mayShop finds wasBought =>
    exact (before isShopping).updateItem finds rfl rfl
  | pickedUp isDistributing mayShop finds hasGoods =>
    have hstage : d.stage = .shopping := shopping
    rw [isDistributing] at hstage
    cases hstage
  | _ => cases shopping

theorem Outcome.handsOut_of_unforced (h : d.Outcome limits user action after reply)
    (unforced : action = .completeShopping ∨ action = .finishAdjusting false)
    (distributes : action = .completeShopping → after.stage = .distributing)
    (listed : d.stage = .shopping → d.book.IsListed)
    (unsettled : d.stage = .adjusting → d.book.listImbalances ≠ []) :
    d.stage.canMove .distributing = true ∧ d.book.imbalances = [] ∧
      ∃ book counters, d.book.handOut d.now d.counters = .ok (reply.allocations, book, counters) ∧
        after.book.bids = book.bids := by
  cases h with
  | shoppingBalanced leads allowed balanced handsOut =>
    -- A run that is adjusting has not completed its shopping in balance.
    have hstage : d.stage = .shopping := by
      cases hd : d.stage with
      | shopping => rfl
      | adjusting => exact absurd balanced (unsettled hd)
      | _ =>
        rw [hd] at allowed
        cases allowed
    refine ⟨allowed, ?_, _, _, handsOut, rfl⟩
    rw [← (listed hstage).listImbalances_eq]
    exact balanced
  | adjustingFinished leads isAdjusting balanced handsOut =>
    rcases unforced with ⟨⟨⟩⟩ | ⟨⟨⟩⟩
    exact ⟨by rw [isAdjusting]; rfl, balanced rfl, _, _, handsOut, rfl⟩
  | shoppingUnbalanced leads isShopping unbalanced => cases distributes rfl
  | _ => rcases unforced with ⟨⟨⟩⟩ | ⟨⟨⟩⟩

end Draft

/-! ## Every reachable book -/

theorem OrderBook.Reachable.isListed {limits : Limits} {book : OrderBook}
    (h : book.Reachable limits) : book.run.stage = .shopping → book.IsListed := by
  refine h.induct (motive := fun book => book.run.stage = .shopping → book.IsListed)
    (fun book isNew shopping => ?_) fun book counters now user action d reply before houtcome => ?_
  · obtain ⟨id, group, store, leader, participation, now, rfl⟩ := isNew
    cases shopping
  · exact fun shopping => houtcome.isListed shopping before

/-- Let the goods of a stored run be handed out because shopping was completed, or because adjusting
was finished without force. Then every purchase is split exactly, the bids are those from before but
for what was handed out, and every committed bid on a bought product gets its own quantity. -/
theorem handout_exact_unless_forced {terms : Terms} {desk after : Desk} {run : RunId}
    {book later : OrderBook} {command : Command} {now : Instant} {reply : Reply}
    (h : desk.Reachable terms) (finds : desk.repository.store.find? run = some book)
    (unforced : command.action = .completeShopping ∨ command.action = .finishAdjusting false)
    (handled : (Desk.handle terms run command now).on desk = (.ok reply, after))
    (findsLater : after.repository.store.find? run = some later)
    (distributes : command.action = .completeShopping → later.run.stage = .distributing) :
    (reply.allocations =
        book.purchases.map fun bought =>
          ⟨bought.product, bought.quantity, bought.quantity, .exact⟩) ∧
      later.bids.map (·.emptied) = book.bids ∧
      ∀ item ∈ book.items, item.isPurchased = true →
        ∀ quantity, item.purchasedQuantity = some quantity → 0 < quantity →
          ∀ b ∈ later.bids, b.countsFor item.product = true →
            b.distributedQuantity = some b.quantity := by
  have hreachable := h.book (Store.mem_of_find? finds)
  obtain ⟨d, houtcome, hstored⟩ := Desk.handle_ok_of_find? h.isUnraced finds handled
  obtain rfl : d.book = later := Option.some.inj (hstored.symm.trans findsLater)
  obtain ⟨hallowed, hbalanced, handed, counters, hhandOut, hbids⟩ :=
    houtcome.handsOut_of_unforced unforced distributes hreachable.isListed
      hreachable.listImbalances_ne_nil
  obtain ⟨hallocations, rfl⟩ := OrderBook.handOut_of_balanced hbalanced hhandOut
  have hwaiting := hreachable.isConsistent.waiting
    (Stage.isBeforeHandout_of_canMove_distributing hallowed)
  refine ⟨hallocations, ?_, ?_⟩
  · have hempty : book.bids.map (·.emptied) = book.bids.map id :=
      List.map_congr_left fun b hb => (hwaiting.each b hb).emptyHanded.emptied_eq
    rw [List.map_id] at hempty
    rw [hbids, map_fulfilAll _ fun _ _ _ => rfl]
    exact hempty
  · intro item hitem hpurchased quantity hquantity hpositive b hb hcounts
    rw [hbids] at hb
    have hbought : item.bought? = some quantity := by
      unfold ShoppingItem.bought?
      rw [hpurchased, hquantity]
      rfl
    have hmem := OrderBook.mem_purchases_iff.mpr
      ⟨item, hitem, quantity, hbought, hpositive, rfl⟩
    exact isFulfilled_of_mem_fulfilAll hb hcounts (.inl ⟨_, hmem, rfl⟩)

/-- The trip of two, if six are bought. -/
def Desk.balancedTurns : List Desk.Turn :=
  Desk.tripTurns.take 5 ++ [Desk.tripTurn 1 (.recordPurchase ⟨1⟩ (.ofInt 6) (.ofInt 1) none)]

/-- Six are bought of six. They get the two and the four that they bid. -/
theorem handout_exact_unless_forced_in_trip :
    ∃ (book later : OrderBook) (reply : Reply) (after : Desk),
      (Desk.opened.takeAll Desk.tripTerms Desk.balancedTurns).repository.store.find? ⟨1⟩ =
        some book ∧
      (Desk.handle Desk.tripTerms ⟨1⟩ ⟨⟨1⟩, .completeShopping⟩ (.ofSeconds 60)).on
        (Desk.opened.takeAll Desk.tripTerms Desk.balancedTurns) = (.ok reply, after) ∧
      after.repository.store.find? ⟨1⟩ = some later ∧
      later.bids.map (·.distributedQuantity) = [some (.units 2), some (.units 4)] ∧
      later.bids.map (·.emptied) = book.bids := by
  have hfound : ((Desk.opened.takeAll Desk.tripTerms Desk.balancedTurns).repository.store.find?
      ⟨1⟩).isSome = true := by decide +kernel
  have hlater : (((Desk.handle Desk.tripTerms ⟨1⟩ ⟨⟨1⟩, .completeShopping⟩ (.ofSeconds 60)).on
      (Desk.opened.takeAll Desk.tripTerms Desk.balancedTurns)).2.repository.store.find? ⟨1⟩).any
        (fun b => b.run.stage = .distributing ∧
          b.bids.map (·.distributedQuantity) = [some (.units 2), some (.units 4)]) = true := by
    decide +kernel
  have hanswered : ((Desk.handle Desk.tripTerms ⟨1⟩ ⟨⟨1⟩, .completeShopping⟩ (.ofSeconds 60)).on
      (Desk.opened.takeAll Desk.tripTerms Desk.balancedTurns)).1.isOk = true := by decide +kernel
  generalize hdesk : Desk.opened.takeAll Desk.tripTerms Desk.balancedTurns = desk
    at hfound hlater hanswered ⊢
  obtain ⟨book, finds⟩ := Option.isSome_iff_exists.mp hfound
  rcases hhandle : (Desk.handle Desk.tripTerms ⟨1⟩ ⟨⟨1⟩, .completeShopping⟩ (.ofSeconds 60)).on desk
    with ⟨why | reply, after⟩
  · rw [hhandle] at hanswered
    cases hanswered
  · rw [hhandle] at hlater
    obtain ⟨later, findsLater, hlater⟩ := (Option.any_eq_true _ _).mp hlater
    simp only [decide_eq_true_eq] at hlater
    obtain ⟨_, hbids, _⟩ := handout_exact_unless_forced ⟨Desk.balancedTurns, hdesk.symm⟩ finds
      (.inl rfl) hhandle findsLater fun _ => hlater.1
    exact ⟨book, later, reply, after, finds, rfl, findsLater, hlater.2, hbids⟩

end BuyingClub
