import BuyingClub.Proofs.Command.Bids
import BuyingClub.Proofs.OrderBook.Sharing
import BuyingClub.Proofs.OrderBook.ShoppingList
import BuyingClub.Proofs.Reachability

/-!
# What is always true of an order book

The invariant of order books, part by part, and that every command keeps it.
-/

namespace BuyingClub

namespace Stage

/-- Whether nothing can have been handed out yet. -/
def isBeforeHandout : Stage → Bool
  | planning | active | confirmed | shopping | adjusting => true
  | distributing | completed | cancelled => false

/-- Whether what was bought has been handed out. -/
def isAfterHandout : Stage → Bool
  | distributing | completed => true
  | planning | active | confirmed | shopping | adjusting | cancelled => false

theorem isBeforeHandout_of_canMove {old new : Stage} (h : old.canMove new = true)
    (hnew : new.isBeforeHandout = true) : old.isBeforeHandout = true := by
  cases old <;> cases new <;> simp_all [canMove, next, isBeforeHandout]

theorem isBeforeHandout_of_canMove_distributing {old : Stage}
    (h : old.canMove .distributing = true) : old.isBeforeHandout = true := by
  cases old <;> simp_all [canMove, next, isBeforeHandout]

theorem isBeforeHandout_of_isOpen {stage : Stage} (h : stage.isOpen = true) :
    stage.isBeforeHandout = true := by
  cases stage <;> simp_all [isOpen, isBeforeHandout]

theorem isAfterHandout_eq_false {stage : Stage} (h : stage.isBeforeHandout = true) :
    stage.isAfterHandout = false := by
  cases stage <;> simp_all [isAfterHandout, isBeforeHandout]

end Stage

/-! ## The invariant -/

/-- A bid for which nothing was handed out. -/
structure Bid.IsEmptyHanded (b : Bid) : Prop where
  quantity : b.distributedQuantity = none
  price : b.distributedPrice = none

/-- A bid as it is before the handout. -/
structure Bid.IsWaiting (b : Bid) : Prop where
  sound : b.IsSound
  emptyHanded : b.IsEmptyHanded
  notPickedUp : b.isPickedUp = false

/-- Every product is listed once, and what was bought has a quantity and a price. -/
structure IsSoundList (items : List ShoppingItem) : Prop where
  distinct : (items.map (·.product)).Nodup
  priced : ∀ item ∈ items, item.isPurchased = true →
    ∃ quantity price, item.purchasedQuantity = some quantity ∧ item.purchasedPrice = some price

/-- All that was bought is shared, and nothing else was handed out. -/
structure OrderBook.IsShared (book : OrderBook) : Prop where
  purchases : ∀ bought ∈ book.purchases, bought.IsShared book.bids
  others : ∀ b ∈ book.bids, (∀ bought ∈ book.purchases, b.countsFor bought.product = false) →
    b.IsEmptyHanded

/-- No participant has two bids on a product. -/
def OneBidEach (bids : List Bid) : Prop :=
  bids.Pairwise fun b c => c.isOf b.participation b.product = false

/-- Bids as they are before the handout. -/
structure AreWaiting (bids : List Bid) : Prop where
  each : ∀ b ∈ bids, b.IsWaiting
  oneEach : OneBidEach bids

structure OrderBook.IsConsistent (book : OrderBook) : Prop where
  list : IsSoundList book.items
  waiting : book.run.stage.isBeforeHandout = true → AreWaiting book.bids
  shared : book.run.stage.isAfterHandout = true → book.IsShared

/-! ## The shopping list -/

theorem IsSoundList.update {items : List ShoppingItem} {product : ProductId} {item : ShoppingItem}
    {f : ShoppingItem → ShoppingItem} (h : IsSoundList items)
    (finds : items.find? (·.product = product) = some item)
    (keeps : (f item).product = item.product)
    (priced : (f item).isPurchased = true → ∃ quantity price,
      (f item).purchasedQuantity = some quantity ∧ (f item).purchasedPrice = some price) :
    IsSoundList (updateFirst (·.product = product) f items) where
  distinct := by
    rw [map_updateFirst_of_find? (·.product) finds keeps]
    exact h.distinct
  priced := by
    intro other hother hpurchased
    rcases mem_updateFirst hother with hother | ⟨found, hfound, rfl⟩
    · exact h.priced other hother hpurchased
    · rw [finds] at hfound
      cases hfound
      exact priced hpurchased

theorem IsSoundList.find? {items : List ShoppingItem} {item : ShoppingItem} (h : IsSoundList items)
    (hitem : item ∈ items) : items.find? (·.product = item.product) = some item :=
  find?_of_nodup h.distinct hitem

theorem IsSoundList.congr {items after : List ShoppingItem} (h : IsSoundList items)
    (same : ∀ {β : Type} (f : ShoppingItem → β),
      (∀ item requested, f { item with requestedQuantity := requested } = f item) →
        after.map f = items.map f) : IsSoundList after where
  distinct := by
    rw [same (·.product) fun _ _ => rfl]
    exact h.distinct
  priced := by
    intro item hitem hpurchased
    -- All three fields as one value, so that they are found in one and the same old item.
    let key (item : ShoppingItem) := (item.isPurchased, item.purchasedQuantity, item.purchasedPrice)
    have hkey : key item ∈ items.map key := by
      rw [← same key fun _ _ => rfl]
      exact List.mem_map.mpr ⟨item, hitem, rfl⟩
    obtain ⟨old, hold, heq⟩ := List.mem_map.mp hkey
    obtain ⟨hpurchased', hrest⟩ := Prod.mk.inj heq
    obtain ⟨hquantity, hprice⟩ := Prod.mk.inj hrest
    rw [← hquantity, ← hprice]
    exact h.priced old hold (hpurchased'.trans hpurchased)

/-! ## Bids before the handout -/

theorem OneBidEach.nodup {bids : List Bid} (h : OneBidEach bids) :
    (bids.map fun b => (b.participation, b.product)).Nodup := by
  refine List.pairwise_map.mpr (h.imp fun {b c} hof heq => ?_)
  obtain ⟨hparticipation, hproduct⟩ := Prod.mk.inj heq
  rw [Bid.isOf_iff.mpr ⟨hparticipation.symm, hproduct.symm⟩] at hof
  cases hof

theorem OneBidEach.of_nodup {bids : List Bid}
    (h : (bids.map fun b => (b.participation, b.product)).Nodup) : OneBidEach bids := by
  refine (List.pairwise_map.mp h).imp fun {b c} hne => Bool.eq_false_iff.mpr fun hof => ?_
  obtain ⟨hparticipation, hproduct⟩ := Bid.isOf_iff.mp hof
  exact hne (Prod.ext hparticipation.symm hproduct.symm)

theorem OneBidEach.find? {bids : List Bid} {b : Bid} (h : OneBidEach bids) (hb : b ∈ bids) :
    bids.find? (·.isOf b.participation b.product) = some b := by
  refine find?_of_unique hb (Bid.isOf_iff.mpr ⟨rfl, rfl⟩) fun c hc hof => ?_
  obtain ⟨hparticipation, hproduct⟩ := Bid.isOf_iff.mp hof
  exact List.inj_on_of_nodup_map h.nodup hc hb (Prod.ext hparticipation hproduct)

theorem OneBidEach.update {bids : List Bid} {test : Bid → Bool} {f : Bid → Bid}
    (h : OneBidEach bids)
    (keeps : ∀ b, (f b).participation = b.participation ∧ (f b).product = b.product) :
    OneBidEach (updateFirst test f bids) := by
  cases hfound : bids.find? test with
  | none =>
    rw [updateFirst_of_find?_eq_none hfound]
    exact h
  | some old =>
    obtain ⟨hparticipation, hproduct⟩ := keeps old
    refine pairwise_updateFirst h hfound (fun b _ hb => ?_) (fun b _ hb => ?_)
    · unfold Bid.isOf
      rw [hparticipation, hproduct]
      exact hb
    · rw [hparticipation, hproduct]
      exact hb

theorem OrderBook.placeBid_areWaiting {book : OrderBook} {limits : Limits} {request : BidRequest}
    {now : Instant} {counters : Counters} {placed : PlacedBid}
    (h : book.placeBid limits request now counters = .ok placed)
    (hsound : 0 ≤ request.quantity ∧ request.quantity.hundredths ≤ Hundredths.bound)
    (before : AreWaiting book.bids) : AreWaiting placed.book.bids := by
  rcases (placeBid_eq_ok_iff.mp h).2 with ⟨previous, finds, rfl⟩ | ⟨unknown, _, rfl⟩
  · refine ⟨fun b hb => ?_, before.oneEach.update fun b => ⟨rfl, rfl⟩⟩
    rcases mem_updateFirst hb with hb | ⟨old, hold, rfl⟩
    · exact before.each b hb
    · have hwaiting := before.each old (List.mem_of_find?_eq_some hold)
      exact ⟨hsound, ⟨hwaiting.emptyHanded.quantity, hwaiting.emptyHanded.price⟩,
        hwaiting.notPickedUp⟩
  · refine ⟨fun b hb => ?_, ?_⟩
    · rcases List.mem_append.mp hb with hb | hb
      · exact before.each b hb
      · rw [List.mem_singleton] at hb
        rw [hb]
        exact ⟨hsound, ⟨rfl, rfl⟩, rfl⟩
    · refine List.pairwise_append.mpr ⟨before.oneEach, List.pairwise_singleton .., ?_⟩
      intro b hb c hc
      rw [List.mem_singleton] at hc
      rw [hc]
      refine Bool.eq_false_iff.mpr fun hof => List.find?_eq_none.mp unknown b hb ?_
      obtain ⟨hparticipation, hproduct⟩ := Bid.isOf_iff.mp hof
      exact Bid.isOf_iff.mpr ⟨hparticipation.symm, hproduct.symm⟩

theorem AreWaiting.eraseP {bids : List Bid} (test : Bid → Bool) (h : AreWaiting bids) :
    AreWaiting (bids.eraseP test) where
  each b hb := h.each b (List.mem_of_mem_eraseP hb)
  oneEach := h.oneEach.sublist List.eraseP_sublist

/-! ## What is shared -/

theorem ShoppingItem.bought?_eq_some_iff {item : ShoppingItem} {quantity : Quantity} :
    item.bought? = some quantity ↔
      item.isPurchased = true ∧ item.purchasedQuantity = some quantity := by
  unfold bought?
  split <;> simp [*]

/-- What an item adds to the goods that are handed out. -/
def ShoppingItem.purchase? (item : ShoppingItem) : Option Purchase :=
  match item.bought? with
  | none => none
  | some quantity =>
    if 0 < quantity then some ⟨item.product, quantity, item.purchasedPrice.getD 0⟩ else none

theorem ShoppingItem.purchase?_eq_some_iff {item : ShoppingItem} {bought : Purchase} :
    item.purchase? = some bought ↔ ∃ quantity, item.bought? = some quantity ∧ 0 < quantity ∧
      bought = ⟨item.product, quantity, item.purchasedPrice.getD 0⟩ := by
  unfold purchase?
  cases item.bought? with
  | none => simp
  | some quantity =>
    by_cases hpositive : 0 < quantity <;> simp [hpositive, eq_comm]

theorem ShoppingItem.product_of_purchase? {item : ShoppingItem} {bought : Purchase}
    (h : item.purchase? = some bought) : bought.product = item.product := by
  obtain ⟨_, _, _, rfl⟩ := purchase?_eq_some_iff.mp h
  rfl

namespace OrderBook

variable {book after : OrderBook}

theorem purchases_eq (book : OrderBook) : book.purchases = book.items.filterMap (·.purchase?) := rfl

theorem mem_purchases_iff {bought : Purchase} :
    bought ∈ book.purchases ↔ ∃ item ∈ book.items, ∃ quantity, item.bought? = some quantity ∧
      0 < quantity ∧ bought = ⟨item.product, quantity, item.purchasedPrice.getD 0⟩ := by
  rw [purchases_eq, List.mem_filterMap]
  simp only [ShoppingItem.purchase?_eq_some_iff]

theorem purchases_sublist (book : OrderBook) :
    (book.purchases.map (·.product)).Sublist (book.items.map (·.product)) := by
  rw [purchases_eq]
  induction book.items with
  | nil => exact .slnil
  | cons item rest ih =>
    rw [List.filterMap_cons]
    split
    · exact .cons _ ih
    · rename_i bought hbought
      rw [List.map_cons, List.map_cons, ShoppingItem.product_of_purchase? hbought]
      exact .cons_cons _ ih

theorem purchases_congr (same : ∀ {β : Type} (f : ShoppingItem → β),
      (∀ item requested, f { item with requestedQuantity := requested } = f item) →
        after.items.map f = book.items.map f) : after.purchases = book.purchases := by
  have hmap (b : OrderBook) : b.purchases = (b.items.map (·.purchase?)).filterMap id := by
    rw [purchases_eq, List.filterMap_map]
    rfl
  rw [hmap, hmap, same _ fun _ _ => rfl]

theorem handOut_isShared {now : Instant} {counters counters' : Counters}
    {allocations : List Allocation} (list : IsSoundList book.items) (waiting : AreWaiting book.bids)
    (h : book.handOut now counters = .ok (allocations, after, counters')) : after.IsShared := by
  have hpurchases := purchases_congr fun f keeps => handOut_items h f keeps
  obtain ⟨leader, _, hall⟩ := handOut_eq_ok_iff.mp h
  have hbids : after.bids =
      (handOutAll leader.id now book.purchases book counters).2.1.bids := by rw [hall]
  constructor
  · rw [hpurchases, hbids]
    refine handOutAll_isShared (list.distinct.sublist book.purchases_sublist) ?_ ?_
    · intro bought hbought
      obtain ⟨item, _, quantity, _, hpositive, rfl⟩ := mem_purchases_iff.mp hbought
      exact hpositive
    · exact fun _ _ b hb _ => (waiting.each b hb).sound
  · rw [hpurchases, hbids]
    exact fun b hb hnone => (waiting.each b (handOutAll_kept hb hnone)).emptyHanded

theorem IsShared.pickUp {b : Bid} {id : BidId} (h : book.IsShared) (finds : book.bid? id = some b) :
    (book.updateBid id fun _ => { b with isPickedUp := true }).IsShared := by
  have hmem : b ∈ book.bids := List.mem_of_find?_eq_some finds
  refine ⟨fun bought hbought => ⟨fun c hc hcounts => ?_, ?_⟩, fun c hc hnone => ?_⟩
  · rcases mem_updateFirst hc with hc | ⟨_, _, rfl⟩
    · exact (h.purchases bought hbought).hasShare c hc hcounts
    · exact (h.purchases bought hbought).hasShare b hmem hcounts
  · have hsame : (book.updateBid id fun _ => { b with isPickedUp := true }).bids.map
        (·.received bought.product) = book.bids.map (·.received bought.product) :=
      map_updateFirst_of_find? _ finds rfl
    ext
    rw [hundredths_handedOutTotal, hsame, ← hundredths_handedOutTotal,
      (h.purchases bought hbought).total]
  · rcases mem_updateFirst hc with hc | ⟨_, _, rfl⟩
    · exact h.others c hc hnone
    · have hempty := h.others b hmem hnone
      exact ⟨hempty.quantity, hempty.price⟩

end OrderBook

namespace Draft

variable {limits : Limits} {d after : Draft} {user : UserId} {action : Action} {reply : Reply}

theorem Outcome.isSoundList (h : d.Outcome limits user action after reply)
    (before : IsSoundList d.book.items) : IsSoundList after.book.items := by
  cases h with
  | @bidPlaced _ _ _ _ _ _ _ _ placed admits fits places moves =>
    subst moves
    rw [movedIf_items]
    show IsSoundList placed.book.items
    rw [(admits.frame_placed places).2]
    exact before
  | bidRetracted isOpen finds fits retracts moves =>
    obtain ⟨_, rfl⟩ := OrderBook.retractBid_eq_ok_iff.mp retracts
    subst moves
    rw [movedIf_items]
    exact before
  | readyToggled isActive finds moves =>
    subst moves
    rw [movedIf_items]
    exact before
  | shoppingStarted leads allowed drawsUp =>
    obtain ⟨_, rfl, _⟩ := OrderBook.drawUpList_eq_ok_iff.mp drawsUp
    refine ⟨?_, fun item hitem hpurchased => ?_⟩
    · show ((itemsToBuy _ _ _).1.map (·.product)).Nodup
      rw [map_product_itemsToBuy]
      exact d.book.nodup_demands.sublist (List.filter_sublist.map _)
    · rw [isPurchased_of_mem_itemsToBuy hitem] at hpurchased
      cases hpurchased
  | purchaseRecorded isShopping mayShop reads finds =>
    have hproduct := OrderBook.product_of_itemFor? finds
    subst hproduct
    exact IsSoundList.update before finds rfl fun _ => ⟨_, _, rfl, rfl⟩
  | purchaseUndone isShopping mayShop finds wasBought =>
    exact IsSoundList.update before finds rfl fun hpurchased => nomatch hpurchased
  | shoppingBalanced leads allowed balanced handsOut =>
    exact IsSoundList.congr before fun f keeps => OrderBook.handOut_items handsOut f keeps
  | adjustingFinished leads isAdjusting balanced handsOut =>
    exact IsSoundList.congr before fun f keeps => OrderBook.handOut_items handsOut f keeps
  | _ => exact before

theorem Outcome.isBeforeHandout (h : d.Outcome limits user action after reply)
    (hafter : after.stage.isBeforeHandout = true) : d.stage.isBeforeHandout = true := by
  rcases h.stage_cases with hsame | hmove
  · rw [← hsame]
    exact hafter
  · exact Stage.isBeforeHandout_of_canMove hmove hafter

theorem Outcome.areWaiting (h : d.Outcome limits user action after reply)
    (hafter : after.stage.isBeforeHandout = true) (before : AreWaiting d.book.bids) :
    AreWaiting after.book.bids := by
  have hstage := h.isBeforeHandout hafter
  have hchanges := h.changesBids
  generalize after.book.bids = bids, reply.allocations = allocations at hchanges ⊢
  cases hchanges with
  | stays => exact before
  | places isOpen staysOpen sameBids reads fits places =>
    rw [← sameBids] at before
    exact OrderBook.placeBid_areWaiting places reads before
  | retracts isOpen staysOpen fits => exact before.eraseP _
  | handsOut bought distributes handsOut =>
    rw [distributes] at hafter
    cases hafter
  | marks isDistributing finds =>
    rw [isDistributing] at hstage
    cases hstage

theorem not_isAfterHandout_movedIf {changed : Draft} {c : Bool} {new : Stage}
    (hafter : (changed.movedIf c new).stage.isAfterHandout = true)
    (hnew : new.isBeforeHandout = true) (hstage : changed.stage.isBeforeHandout = true) :
    False := by
  rw [movedIf_stage] at hafter
  split at hafter
  · rw [Stage.isAfterHandout_eq_false hnew] at hafter
    cases hafter
  · rw [Stage.isAfterHandout_eq_false hstage] at hafter
    cases hafter

theorem Outcome.isShared (h : d.Outcome limits user action after reply)
    (hafter : after.stage.isAfterHandout = true) (before : d.book.IsConsistent) :
    after.book.IsShared := by
  cases h with
  | @bidPlaced product _ _ _ _ _ admitted _ placed admits fits places moves =>
    subst moves
    have hopen := Stage.isBeforeHandout_of_isOpen admits.isOpen
    rw [← stage_bidPlaced admits places] at hopen
    exact (not_isAfterHandout_movedIf hafter rfl hopen).elim
  | @bidRetracted product _ _ _ _ isOpen finds fits retracts moves =>
    subst moves
    obtain ⟨_, rfl⟩ := OrderBook.retractBid_eq_ok_iff.mp retracts
    have hopen := Stage.isBeforeHandout_of_isOpen isOpen
    exact (not_isAfterHandout_movedIf hafter rfl hopen).elim
  | readyToggled isActive finds moves =>
    subst moves
    have hactive : d.stage.isBeforeHandout = true := by
      rw [isActive]
      rfl
    exact (not_isAfterHandout_movedIf hafter rfl hactive).elim
  | helperSet leads isLive finds =>
    have hshared := before.shared hafter
    exact ⟨hshared.purchases, hshared.others⟩
  | purchaseRecorded isShopping mayShop reads finds =>
    have hstage : d.stage.isAfterHandout = true := hafter
    rw [isShopping] at hstage
    cases hstage
  | purchaseUndone isShopping mayShop finds wasBought =>
    have hstage : d.stage.isAfterHandout = true := hafter
    rw [isShopping] at hstage
    cases hstage
  | shoppingBalanced leads allowed balanced handsOut =>
    have hstage := Stage.isBeforeHandout_of_canMove_distributing allowed
    have hshared := OrderBook.handOut_isShared before.list (before.waiting hstage) handsOut
    exact ⟨hshared.purchases, hshared.others⟩
  | adjustingFinished leads isAdjusting balanced handsOut =>
    have hstage : d.book.run.stage.isBeforeHandout = true := by
      rw [show d.book.run.stage = .adjusting from isAdjusting]
      rfl
    have hshared := OrderBook.handOut_isShared before.list (before.waiting hstage) handsOut
    exact ⟨hshared.purchases, hshared.others⟩
  | pickedUp isDistributing mayShop finds hasGoods =>
    have hstage : d.book.run.stage.isAfterHandout = true := by
      rw [show d.book.run.stage = .distributing from isDistributing]
      rfl
    have hid := OrderBook.id_of_bid? finds
    rw [← hid] at finds
    have hshared := (before.shared hstage).pickUp finds
    exact ⟨hshared.purchases, hshared.others⟩
  | completed leads isDistributing isDone =>
    have hstage : d.book.run.stage.isAfterHandout = true := by
      rw [show d.book.run.stage = .distributing from isDistributing]
      rfl
    have hshared := before.shared hstage
    exact ⟨hshared.purchases, hshared.others⟩
  | _ => cases hafter

theorem Outcome.isConsistent (h : d.Outcome limits user action after reply)
    (before : d.book.IsConsistent) : after.book.IsConsistent where
  list := h.isSoundList before.list
  waiting hafter := h.areWaiting hafter (before.waiting (h.isBeforeHandout hafter))
  shared hafter := h.isShared hafter before

end Draft

/-! ## Every reachable book -/

namespace OrderBook

theorem IsNew.isConsistent {book : OrderBook} (h : book.IsNew) : book.IsConsistent := by
  obtain ⟨id, group, store, leader, participation, now, rfl⟩ := h
  refine ⟨⟨.nil, fun item hitem => ?_⟩, fun _ => ⟨fun b hb => ?_, .nil⟩, fun hstage => ?_⟩
  · cases hitem
  · cases hb
  · cases hstage

theorem Reachable.isConsistent {limits : Limits} {book : OrderBook} (h : book.Reachable limits) :
    book.IsConsistent :=
  h.induct (fun _ => IsNew.isConsistent) fun _ _ _ _ _ _ _ before houtcome =>
    houtcome.isConsistent before

end OrderBook

end BuyingClub
