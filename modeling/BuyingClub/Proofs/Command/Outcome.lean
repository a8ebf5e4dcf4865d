import BuyingClub.Proofs.Command.Checks
import BuyingClub.Proofs.OrderBook.Operations

/-!
# Outcomes of commands

`Outcome` lists, command by command, under which conditions a draft is changed, what becomes of it
and what is answered.
-/

namespace BuyingClub

namespace Draft

variable (d : Draft)

/-! ## Drafts after a change -/

/-- The draft with the user as its last participant. -/
def joined (user : UserId) : Draft :=
  let (id, counters) := d.counters.drawParticipation
  let p := Participation.join id d.book.run.id user false d.now
  { d with book := { d.book with participations := d.book.participations ++ [p] }, counters }

def bidPlaced (user : UserId) (product : ProductId) (placed : PlacedBid) : Draft :=
  { d.touch placed.book with counters := placed.counters }.record (.bidPlaced user product)

def bidRetracted (user : UserId) (product : ProductId) (book : OrderBook) : Draft :=
  (d.touch book).record (.bidRetracted user product)

def readyToggled (user : UserId) (p : Participation) : Draft :=
  (d.touch (d.book.updateParticipation p.id fun q => { q with isReady := !p.isReady })).record
    (.readyToggled user)

def helperSet (helper : UserId) (p : Participation) (isHelper : Bool) : Draft :=
  (d.touch (d.book.updateParticipation p.id fun q => { q with isHelper })).record
    (.helperChanged helper)

def purchaseRecorded (user : UserId) (item : ShoppingItem) : Draft :=
  (d.touch (d.book.updateItem item.product fun _ => item)).record
    (.purchaseRecorded user item.product)

def purchaseUndone (user : UserId) (product : ProductId) : Draft :=
  (d.touch (d.book.updateItem product (·.unpurchased))).record (.purchaseUndone user product)

/-- The draft with another book and other counters, in another stage. -/
def movedWith (book : OrderBook) (counters : Counters) (new : Stage) : Draft :=
  { d.touch book with counters }.moved new

def pickedUp (user : UserId) (b : Bid) : Draft :=
  (d.touch (d.book.updateBid b.id fun _ => { b with isPickedUp := true })).record
    (.bidPickedUp user b.product)

/-! ## Conditions -/

/-- Who may bid, and what is read as the quantity: a participant, or someone who joins. -/
inductive Admits (limits : Limits) (user : UserId) (value : Binary64) :
    ParticipationId → Quantity → Draft → Prop
  | participant {p : Participation} {quantity : Quantity} (isOpen : d.stage.isOpen = true)
      (reads : limits.readBid value = .ok quantity)
      (finds : d.book.participationOf? user = some p) :
      Admits limits user value p.id quantity d
  | newcomer {quantity : Quantity} (isOpen : d.stage.isOpen = true)
      (reads : limits.readBid value = .ok quantity)
      (unknown : d.book.participationOf? user = none) (takesNewcomers : d.stage ≠ .adjusting)
      (hasRoom : d.book.activeParticipations.length < limits.maxMembers) :
      Admits limits user value ⟨d.counters.participation⟩ quantity (d.joined user)

/-- What a command that is not refused makes of a draft, and what it is answered. -/
inductive Outcome (limits : Limits) (user : UserId) : Action → Draft → Reply → Prop
  | bidPlaced {product : ProductId} {value : Binary64} {interestedOnly : Bool}
      {comment : Option String} {participation : ParticipationId} {quantity : Quantity}
      {admitted after : Draft} {placed : PlacedBid}
      (admits : d.Admits limits user value participation quantity admitted)
      (fits : d.stage = .adjusting →
        admitted.book.checkChange participation product quantity interestedOnly = .ok ())
      (places : admitted.book.placeBid limits
        ⟨participation, product, quantity, interestedOnly, comment⟩ d.now admitted.counters =
          .ok placed)
      (moves : after = (admitted.bidPlaced user product placed).movedIf
        (d.stage = .planning &&
          !((admitted.bidPlaced user product placed).book.participation? participation).any
            (·.isLeader)) .active) :
      Outcome limits user (.placeBid product value interestedOnly comment) after
        (.bidPlaced placed.bid placed.previous.isNone after.stage)
  | bidRetracted {product : ProductId} {p : Participation} {bid : Bid} {book : OrderBook}
      {after : Draft} (isOpen : d.stage.isOpen = true)
      (finds : d.book.participationOf? user = some p)
      (fits : d.stage = .adjusting → d.book.checkRetraction p.id product = .ok ())
      (retracts : d.book.retractBid p.id product = .ok (bid, book))
      (moves : after = (d.bidRetracted user product book).movedIf
        (d.stage = .active && !hasMemberBids (d.bidRetracted user product book).book) .planning) :
      Outcome limits user (.retractBid product) after (.bidRetracted bid after.stage)
  | readyToggled {p : Participation} {after : Draft} (isActive : d.stage = .active)
      (finds : d.book.participationOf? user = some p)
      (moves : after = (d.readyToggled user (d.identified p)).movedIf
        ((d.readyToggled user (d.identified p)).book.activeParticipations.all (·.isReady))
        .confirmed) :
      Outcome limits user .toggleReady after
        (.readyToggled (!(d.identified p).isReady) after.stage)
  | helperSet {helper : UserId} {isHelper : Bool} {p : Participation}
      (leads : d.book.leader?.any (·.user = user) = true) (isLive : d.stage.isTerminal = false)
      (finds : d.book.participationOf? helper = some p) :
      Outcome limits user (.setHelper helper isHelper)
        (d.helperSet helper (d.identified p) isHelper)
        (.helperSet { d.identified p with isHelper })
  | confirmed (leads : d.book.leader?.any (·.user = user) = true)
      (allowed : d.stage.canMove .confirmed = true) :
      Outcome limits user .forceConfirm (d.moved .confirmed)
        (.confirmed (d.moved .confirmed).book.run)
  | shoppingStarted {book : OrderBook} {counters : Counters}
      (leads : d.book.leader?.any (·.user = user) = true)
      (allowed : d.stage.canMove .shopping = true)
      (drawsUp : d.book.drawUpList d.counters = .ok (book, counters)) :
      Outcome limits user .startShopping (d.movedWith book counters .shopping)
        (.shoppingStarted book.items)
  | purchaseRecorded {product : ProductId} {quantity price : Binary64} {total : Option Binary64}
      {q : Quantity} {each paid : Money} {item : ShoppingItem} (isShopping : d.stage = .shopping)
      (mayShop : (d.book.participationOf? user).any (·.mayShop) = true)
      (reads : readPurchase limits quantity price total = .ok (q, each, paid))
      (finds : d.book.itemFor? product = some item) :
      Outcome limits user (.recordPurchase product quantity price total)
        (d.purchaseRecorded user (item.purchased q each paid (nextOrder d.book.items)))
        (.purchaseRecorded (item.purchased q each paid (nextOrder d.book.items)))
  | purchaseUndone {product : ProductId} {item : ShoppingItem} (isShopping : d.stage = .shopping)
      (mayShop : (d.book.participationOf? user).any (·.mayShop) = true)
      (finds : d.book.itemFor? product = some item) (wasBought : item.isPurchased = true) :
      Outcome limits user (.undoPurchase product) (d.purchaseUndone user product)
        (.purchaseUndone item.unpurchased)
  | shoppingBalanced {allocations : List Allocation} {book : OrderBook} {counters : Counters}
      (leads : d.book.leader?.any (·.user = user) = true)
      (allowed : d.stage.canMove .distributing = true) (balanced : d.book.listImbalances = [])
      (handsOut : d.book.handOut d.now d.counters = .ok (allocations, book, counters)) :
      Outcome limits user .completeShopping (d.movedWith book counters .distributing)
        (.shoppingCompleted .distributing [] allocations)
  | shoppingUnbalanced (leads : d.book.leader?.any (·.user = user) = true)
      (isShopping : d.stage = .shopping) (unbalanced : d.book.listImbalances ≠ []) :
      Outcome limits user .completeShopping (d.moved .adjusting)
        (.shoppingCompleted .adjusting d.book.listImbalances [])
  | adjustingFinished {force : Bool} {allocations : List Allocation} {book : OrderBook}
      {counters : Counters} (leads : d.book.leader?.any (·.user = user) = true)
      (isAdjusting : d.stage = .adjusting)
      (balanced : force = false → d.book.imbalances = [])
      (handsOut : d.book.handOut d.now d.counters = .ok (allocations, book, counters)) :
      Outcome limits user (.finishAdjusting force) (d.movedWith book counters .distributing)
        (.adjustingFinished allocations)
  | pickedUp {bid : BidId} {b : Bid} (isDistributing : d.stage = .distributing)
      (mayShop : (d.book.participationOf? user).any (·.mayShop) = true)
      (finds : d.book.bid? bid = some b) (hasGoods : b.distributedQuantity.isSome = true) :
      Outcome limits user (.markPickedUp bid) (d.pickedUp user b)
        (.pickedUp { b with isPickedUp := true })
  | completed (leads : d.book.leader?.any (·.user = user) = true)
      (isDistributing : d.stage = .distributing) (isDone : d.book.outstandingPickups = 0) :
      Outcome limits user .completeDistribution (d.moved .completed)
        (.completed (d.moved .completed).book.run)
  | cancelled (leads : d.book.leader?.any (·.user = user) = true)
      (allowed : d.stage.canMove .cancelled = true) :
      Outcome limits user .cancel (d.moved .cancelled) (.cancelled (d.moved .cancelled).book.run)

end Draft

end BuyingClub
