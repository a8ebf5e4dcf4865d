import BuyingClub.OrderBook
import BuyingClub.Refusal

/-!
# Handing out what was bought

Each bought product is split among its committed bids, at the price it was bought for. If too
little was bought, every bid but the last gets its share to the nearest hundredth and the last gets
the rest. If too much was bought, the leader takes the surplus as a bid.
-/

namespace BuyingClub

/-- What was bought of a product. -/
structure Purchase where
  product : ProductId
  quantity : Quantity
  price : Money

/-- How the quantity bought was split. -/
inductive Split where
  | exact
  | surplus (toLeader : Quantity)
  | prorated
deriving DecidableEq

structure Allocation where
  product : ProductId
  /-- The committed total before the split. -/
  requested : Quantity
  purchased : Quantity
  split : Split
deriving DecidableEq

/-! ## A shortage -/

/-- What a bid gets of what remains. The last one gets all of it. -/
def shareOf (bought : Purchase) (requested remaining : Quantity) (isLast : Bool) (b : Bid) :
    Quantity :=
  if isLast then remaining else min (b.quantity.scale bought.quantity requested) remaining

/-- Splits what remains of a purchase among the committed bids of its product, in their order. -/
def prorate (bought : Purchase) (requested : Quantity) : Quantity → List Bid → List Bid
  | _, [] => []
  | remaining, b :: rest =>
    if b.countsFor bought.product then
      let isLast := !rest.any (·.countsFor bought.product)
      let share := shareOf bought requested remaining isLast b
      b.handedOut share bought.price :: prorate bought requested (remaining - share) rest
    else b :: prorate bought requested remaining rest

/-! ## Enough or more -/

/-- Gives every committed bid of the product its own quantity. -/
def fulfil (bought : Purchase) (bids : List Bid) : List Bid :=
  bids.map fun b =>
    if b.countsFor bought.product then b.handedOut b.quantity bought.price else b

namespace Bid

/-- The bid with a surplus on top; mere interest becomes a bid for the surplus. -/
def absorb (surplus : Quantity) (now : Instant) (b : Bid) : Bid :=
  { b with
    interestedOnly := false
    quantity := if b.interestedOnly then surplus else b.quantity + surplus
    updatedAt := now }

/-- A bid for a surplus that had none to join. -/
def forSurplus (id : BidId) (participation : ParticipationId) (product : ProductId)
    (surplus : Quantity) (now : Instant) : Bid where
  id
  participation
  product
  quantity := surplus
  interestedOnly := false
  comment := none
  distributedQuantity := none
  distributedPrice := none
  isPickedUp := false
  updatedAt := now

end Bid

/-- Adds a surplus to the leader's bid on the product, or a bid for it at the end. -/
def grantSurplus (leader : ParticipationId) (product : ProductId) (surplus : Quantity)
    (now : Instant) (bids : List Bid) (counters : Counters) : List Bid × Counters :=
  if bids.any (·.isOf leader product) then
    (updateFirst (·.isOf leader product) (·.absorb surplus now) bids, counters)
  else
    let (id, counters) := counters.drawBid
    (bids ++ [Bid.forSurplus id leader product surplus now], counters)

/-! ## The whole handout -/

namespace OrderBook

/-- The items of which a positive quantity was bought; one without a price is free. -/
def purchases (book : OrderBook) : List Purchase :=
  book.items.filterMap fun item =>
    match item.bought? with
    | none => none
    | some quantity =>
      if 0 < quantity then some ⟨item.product, quantity, item.purchasedPrice.getD 0⟩ else none

def setRequested (book : OrderBook) (product : ProductId) (requested : Quantity) : OrderBook :=
  book.updateItem product fun item => { item with requestedQuantity := requested }

/-- Splits one purchase. -/
def handOutProduct (leader : ParticipationId) (now : Instant) (bought : Purchase)
    (book : OrderBook) (counters : Counters) : Allocation × OrderBook × Counters :=
  let requested := book.demand bought.product
  let allocation (split : Split) : Allocation :=
    ⟨bought.product, requested, bought.quantity, split⟩
  if bought.quantity < requested then
    let bids := prorate bought requested bought.quantity book.bids
    (allocation .prorated, { book with bids }.setRequested bought.product requested, counters)
  else
    let surplus := bought.quantity - requested
    if 0 < surplus then
      let (bids, counters) :=
        grantSurplus leader bought.product surplus now book.bids counters
      let book := { book with bids := fulfil bought bids }
      (allocation (.surplus surplus), book.setRequested bought.product bought.quantity, counters)
    else
      (allocation .exact, { book with bids := fulfil bought book.bids }, counters)

/-- Splits one purchase after the other. -/
def handOutAll (leader : ParticipationId) (now : Instant) : List Purchase → OrderBook → Counters →
    List Allocation × OrderBook × Counters
  | [], book, counters => ([], book, counters)
  | bought :: rest, book, counters =>
    let (allocation, book, counters) := handOutProduct leader now bought book counters
    let (allocations, book, counters) := handOutAll leader now rest book counters
    (allocation :: allocations, book, counters)

/-- Splits all that was bought. -/
def handOut (book : OrderBook) (now : Instant) (counters : Counters) :
    Except Refusal (List Allocation × OrderBook × Counters) :=
  match book.leader? with
  | none => .error (.missing (.leaderOf book.run.id))
  | some leader => .ok (handOutAll leader.id now book.purchases book counters)

/-- The number of bids with goods that nobody has collected. -/
def outstandingPickups (book : OrderBook) : Nat :=
  book.bids.countP (·.awaitsPickup)

end OrderBook

end BuyingClub
