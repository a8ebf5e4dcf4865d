import BuyingClub.OrderBook.Balance
import BuyingClub.OrderBook.Bidding
import BuyingClub.OrderBook.Handout
import BuyingClub.OrderBook.ShoppingList
import BuyingClub.Proofs.Amount

/-!
# What operations on a book give

For each operation that can be refused: when it is done, and what it gives then.
-/

namespace BuyingClub

theorem Bid.isOf_iff {b : Bid} {participation : ParticipationId} {product : ProductId} :
    b.isOf participation product = true ↔
      b.participation = participation ∧ b.product = product := by
  simp [isOf]

namespace OrderBook

variable {book after : OrderBook} {participation : ParticipationId} {product : ProductId}
  {user : UserId} {counters counters' : Counters} {now : Instant}

/-! ## What is found -/

theorem product_of_itemFor? {item : ShoppingItem} (h : book.itemFor? product = some item) :
    item.product = product := by
  simpa using List.find?_some h

theorem mem_of_itemFor? {item : ShoppingItem} (h : book.itemFor? product = some item) :
    item ∈ book.items :=
  List.mem_of_find?_eq_some h

theorem id_of_bid? {id : BidId} {b : Bid} (h : book.bid? id = some b) : b.id = id := by
  simpa using List.find?_some h

theorem isOf_of_bidOf? {b : Bid} (h : book.bidOf? participation product = some b) :
    b.participation = participation ∧ b.product = product :=
  Bid.isOf_iff.mp (by simpa using List.find?_some h)

theorem id_of_participation? {p : Participation} (h : book.participation? participation = some p) :
    p.id = participation := by
  simpa using List.find?_some h

/-! ## What is done -/

theorem placeBid_eq_ok_iff {limits : Limits} {request : BidRequest} {placed : PlacedBid} :
    book.placeBid limits request now counters = .ok placed ↔
      limits.checkBid request.quantity = .ok () ∧
        ((∃ previous, book.bidOf? request.participation request.product = some previous ∧
            placed = {
              bid := request.revise now previous
              previous := some previous
              book := { book with
                bids := updateFirst (·.isOf request.participation request.product)
                  (request.revise now) book.bids }
              counters }) ∨
          (book.bidOf? request.participation request.product = none ∧
            book.checkNewProduct limits request.product = .ok () ∧
            placed = {
              bid := request.newBid ⟨counters.bid⟩ now
              previous := none
              book := { book with bids := book.bids ++ [request.newBid ⟨counters.bid⟩ now] }
              counters := counters.drawBid.2 })) := by
  unfold placeBid
  cases hb : book.bidOf? request.participation request.product with
  | some previous =>
    simp only [bind_eq_ok_iff, pure_eq_ok_iff]
    constructor
    · rintro ⟨_, hc, rfl⟩
      exact ⟨hc, .inl ⟨previous, rfl, rfl⟩⟩
    · rintro ⟨hc, ⟨_, ⟨⟩, rfl⟩ | ⟨⟨⟩, _⟩⟩
      exact ⟨(), hc, rfl⟩
  | none =>
    simp only [bind_eq_ok_iff, pure_eq_ok_iff]
    constructor
    · rintro ⟨_, hc, _, hn, rfl⟩
      exact ⟨hc, .inr ⟨trivial, hn, rfl⟩⟩
    · rintro ⟨hc, ⟨_, ⟨⟩, _⟩ | ⟨_, hn, rfl⟩⟩
      exact ⟨(), hc, (), hn, rfl⟩

theorem retractBid_eq_ok_iff {bid : Bid} :
    book.retractBid participation product = .ok (bid, after) ↔
      book.bidOf? participation product = some bid ∧
        after = { book with bids := book.bids.eraseP (·.isOf participation product) } := by
  unfold retractBid
  cases book.bidOf? participation product <;> simp [eq_comm]

theorem drawUpList_eq_ok_iff :
    book.drawUpList counters = .ok (after, counters') ↔
      book.items = [] ∧
        after = { book with
          items := (itemsToBuy book.run.id (book.demands.filter fun entry => 0 < entry.2)
            counters).1 } ∧
        counters' = (itemsToBuy book.run.id (book.demands.filter fun entry => 0 < entry.2)
          counters).2 := by
  unfold drawUpList
  cases hi : book.items with
  | nil =>
    simp only [List.isEmpty_nil, if_true, Except.ok.injEq, Prod.mk.injEq, true_and]
    exact and_congr eq_comm eq_comm
  | cons => simp

theorem handOut_eq_ok_iff {allocations : List Allocation} :
    book.handOut now counters = .ok (allocations, after, counters') ↔
      ∃ leader, book.leader? = some leader ∧
        handOutAll leader.id now book.purchases book counters =
          (allocations, after, counters') := by
  unfold handOut
  cases book.leader? <;> simp

theorem checkNewProduct_eq_ok_iff {limits : Limits} {u : Unit} :
    book.checkNewProduct limits product = .ok u ↔
      product ∈ book.products ∨ book.products.length < limits.maxProducts := by
  unfold checkNewProduct
  by_cases hp : product ∈ book.products
  · simp [hp]
  · by_cases hn : limits.maxProducts ≤ book.products.length
    · simp [hp, hn]
    · simp [hp, hn, Nat.lt_of_not_le hn]

theorem checkBalanced_eq_ok_iff {u : Unit} : book.checkBalanced = .ok u ↔ book.imbalances = [] := by
  unfold checkBalanced
  simp

theorem outstandingPickups_eq_zero_iff :
    book.outstandingPickups = 0 ↔ ∀ b ∈ book.bids, b.awaitsPickup = false := by
  unfold outstandingPickups
  rw [List.countP_eq_zero]
  exact forall₂_congr fun b _ => iff_of_eq (Bool.not_eq_true _)

/-! ## What adjusting allows -/

theorem purchasedQuantity_eq_ok_iff {quantity : Quantity} :
    book.purchasedQuantity product = .ok quantity ↔
      ∃ item, book.itemFor? product = some item ∧ item.bought? = some quantity := by
  unfold purchasedQuantity
  cases book.itemFor? product with
  | none => simp
  | some item => cases hbought : item.bought? <;> simp [hbought]

theorem checkStep_eq_ok_iff {delta current quantity : Quantity} {u : Unit} :
    checkStep product delta current quantity = .ok u ↔
      (delta < 0 ∧ quantity ≤ current ∧ max (current - delta.abs) 0 ≤ quantity) ∨
        (0 < delta ∧ current ≤ quantity ∧ quantity ≤ current + delta) := by
  have hdelta : delta < 0 → ¬ 0 < delta := Int.lt_asymm
  have hle (a b : Quantity) : a ≤ b ↔ ¬ b < a := Int.not_lt.symm
  unfold checkStep
  simp only [hle]
  split
  · split
    · simp [*]
    · split <;> simp [*]
  · split
    · split
      · simp [*]
      · split <;> simp [*]
    · simp [*]

theorem of_checkStep {delta current quantity : Quantity}
    (h : checkStep product delta current quantity = .ok ()) :
    (delta < 0 ∧ quantity ≤ current ∧ current + delta ≤ quantity) ∨
      (0 < delta ∧ current ≤ quantity ∧ quantity ≤ current + delta) := by
  have habs : delta.abs.hundredths = delta.hundredths.natAbs := rfl
  have hfloor := Quantity.hundredths_max (current - delta.abs) 0
  have hbounds := checkStep_eq_ok_iff.mp h
  simp only [Quantity.lt_def, Quantity.le_def, Quantity.hundredths_zero, Quantity.hundredths_sub,
    Quantity.hundredths_add] at hbounds hfloor ⊢
  omega

theorem checkChange_eq_ok_iff {quantity : Quantity} {interestedOnly : Bool} :
    book.checkChange participation product quantity interestedOnly = .ok () ↔
      ∃ purchased current, book.purchasedQuantity product = .ok purchased ∧
        book.bidOf? participation product = some current ∧
        current.interestedOnly = interestedOnly ∧
        (current.interestedOnly = true ∨ quantity = current.quantity ∨
          checkStep product (purchased - book.demand product) current.quantity quantity =
            .ok ()) := by
  unfold checkChange
  rw [bind_eq_ok_iff]
  refine exists_congr fun purchased => ?_
  rw [exists_and_left]
  refine and_congr_right fun _ => ?_
  cases book.bidOf? participation product with
  | none => simp
  | some current =>
    simp only [Option.some.injEq, exists_eq_left', ← or_assoc]
    by_cases hflag : current.interestedOnly = interestedOnly
    · subst hflag
      rw [if_neg (not_not.mpr rfl)]
      split
      · rename_i hstays
        simp [hstays]
      · rename_i hchanges
        rw [or_iff_right hchanges]
        simp
    · simp [hflag]

theorem checkRetraction_eq_ok_iff {u : Unit} :
    book.checkRetraction participation product = .ok u ↔
      ∃ bid, book.bidOf? participation product = some bid ∧ bid.interestedOnly = true := by
  unfold checkRetraction
  cases book.bidOf? participation product with
  | none => simp
  | some bid => cases hinterest : bid.interestedOnly <;> simp [hinterest]

/-! ## What stays -/

theorem placeBid_frame {limits : Limits} {request : BidRequest} {placed : PlacedBid}
    (h : book.placeBid limits request now counters = .ok placed) :
    placed.book.run = book.run ∧ placed.book.participations = book.participations ∧
      placed.book.items = book.items := by
  rcases (placeBid_eq_ok_iff.mp h).2 with ⟨_, _, rfl⟩ | ⟨_, _, rfl⟩ <;> exact ⟨rfl, rfl, rfl⟩

theorem handOutProduct_frame (book : OrderBook) (counters : Counters) (now : Instant)
    (leader : ParticipationId) (bought : Purchase) :
    (handOutProduct leader now bought book counters).2.1.run = book.run ∧
      (handOutProduct leader now bought book counters).2.1.participations =
        book.participations := by
  unfold handOutProduct setRequested updateItem
  grind

theorem handOutAll_cons (leader : ParticipationId) (bought : Purchase) (rest : List Purchase) :
    handOutAll leader now (bought :: rest) book counters =
      let one := handOutProduct leader now bought book counters
      let others := handOutAll leader now rest one.2.1 one.2.2
      (one.1 :: others.1, others.2) := rfl

theorem handOutAll_frame (book : OrderBook) (counters : Counters) (now : Instant)
    (leader : ParticipationId) (purchases : List Purchase) :
    (handOutAll leader now purchases book counters).2.1.run = book.run ∧
      (handOutAll leader now purchases book counters).2.1.participations =
        book.participations := by
  induction purchases generalizing book counters with
  | nil => exact ⟨rfl, rfl⟩
  | cons bought rest ih =>
    obtain ⟨hrun, hparts⟩ := handOutProduct_frame book counters now leader bought
    rw [handOutAll_cons]
    exact ⟨(ih _ _).1.trans hrun, (ih _ _).2.trans hparts⟩

theorem handOut_run {allocations : List Allocation}
    (h : book.handOut now counters = .ok (allocations, after, counters')) :
    after.run = book.run := by
  obtain ⟨leader, _, h⟩ := handOut_eq_ok_iff.mp h
  have hframe := handOutAll_frame book counters now leader.id book.purchases
  rw [h] at hframe
  exact hframe.1

theorem handOut_participations {allocations : List Allocation}
    (h : book.handOut now counters = .ok (allocations, after, counters')) :
    after.participations = book.participations := by
  obtain ⟨leader, _, h⟩ := handOut_eq_ok_iff.mp h
  have hframe := handOutAll_frame book counters now leader.id book.purchases
  rw [h] at hframe
  exact hframe.2

end OrderBook

end BuyingClub
