import BuyingClub.Command
import BuyingClub.Command.Draft
import BuyingClub.OrderBook.Balance
import BuyingClub.OrderBook.Bidding
import BuyingClub.OrderBook.ShoppingList

/-!
# What commands do

Each command checks rights and conditions and then changes the draft. A command that is refused
changes nothing, but identifiers it has drawn stay drawn.
-/

namespace BuyingClub.Draft

variable (d : Draft)

/-! ## Bids -/

/-- Adds a participant who is not the leader. -/
def join (limits : Limits) (user : UserId) : Except Refusal (ParticipationId × Draft) :=
  let count := d.book.activeParticipations.length
  if d.stage = .adjusting then .error (.invalid .closedToNewcomers)
  else if limits.maxMembers ≤ count then
    .error (.invalid (.tooManyParticipants count limits.maxMembers))
  else
    let (id, counters) := d.counters.drawParticipation
    let p := Participation.join id d.book.run.id user false d.now
    let book := { d.book with participations := d.book.participations ++ [p] }
    .ok (id, { d with book, counters })

/-- Reads the quantity of a bid and finds its bidder, who joins the run if need be. -/
def admitBid (limits : Limits) (user : UserId) (value : Binary64) :
    Except Refusal (ParticipationId × Quantity × Draft) := do
  d.stage.checkOpen "place_bid"
  let quantity ← limits.readBid value
  match d.book.participationOf? user with
  | some p => return (p.id, quantity, d)
  | none =>
    let (id, d) ← d.join limits user
    return (id, quantity, d)

/-- Places a bid whose bidder takes part in the run. The first bid of anyone but the leader makes a
planned run active. -/
def enterBid (limits : Limits) (user : UserId) (request : BidRequest) :
    Except Refusal (Draft × Reply) := do
  let stage := d.stage
  if stage = .adjusting then
    d.book.checkChange request.participation request.product request.quantity
      request.interestedOnly
  let placed ← d.book.placeBid limits request d.now d.counters
  let d := { d.touch placed.book with counters := placed.counters }
  let d := d.record (.bidPlaced user request.product)
  let byLeader := (d.book.participation? request.participation).any (·.isLeader)
  let d ← if stage = .planning && !byLeader then d.move .active else pure d
  return (d, .bidPlaced placed.bid placed.previous.isNone d.stage)

/-- Whether someone besides the leader holds a bid. -/
def hasMemberBids (book : OrderBook) : Bool :=
  book.bids.any fun b =>
    (book.participation? b.participation).any fun p => !p.isLeader && !p.isRemoved

/-- A run that loses its last bid by a member goes back to planning. -/
def retractBid (user : UserId) (product : ProductId) : Except Refusal (Draft × Reply) := do
  let stage := d.stage
  stage.checkOpen "retract_bid"
  let p ← d.participationOf user
  if stage = .adjusting then
    d.book.checkRetraction p.id product
  let (bid, book) ← d.book.retractBid p.id product
  let d := (d.touch book).record (.bidRetracted user product)
  let d ← if stage = .active && !hasMemberBids d.book then d.move .planning else pure d
  return (d, .bidRetracted bid d.stage)

/-! ## Participants -/

/-- The participation as it is found by its identifier. -/
def identified (p : Participation) : Participation :=
  (d.book.participation? p.id).getD p

/-- Once everyone is ready, the run is confirmed. -/
def toggleReady (user : UserId) : Except Refusal (Draft × Reply) := do
  d.checkStage .active "toggle_ready"
  let p := d.identified (← d.participationOf user)
  let isReady := !p.isReady
  let book := d.book.updateParticipation p.id fun p => { p with isReady }
  let d := (d.touch book).record (.readyToggled user)
  let d ← if d.book.activeParticipations.all (·.isReady) then d.move .confirmed else pure d
  return (d, .readyToggled isReady d.stage)

def setHelper (user helper : UserId) (isHelper : Bool) : Except Refusal (Draft × Reply) := do
  d.checkLeader user "assign helpers"
  d.checkLive
  let p := d.identified (← d.participationOf helper)
  let book := d.book.updateParticipation p.id fun p => { p with isHelper }
  return ((d.touch book).record (.helperChanged helper), .helperSet { p with isHelper })

def forceConfirm (user : UserId) : Except Refusal (Draft × Reply) := do
  d.checkLeader user "force confirmation"
  let d ← d.move .confirmed
  return (d, .confirmed d.book.run)

/-! ## Shopping -/

def startShopping (user : UserId) : Except Refusal (Draft × Reply) := do
  d.checkLeader user "start shopping"
  d.checkMove .shopping
  let (book, counters) ← d.book.drawUpList d.counters
  let d ← { d.touch book with counters }.move .shopping
  return (d, .shoppingStarted book.items)

/-- The total of a purchase, as given or as computed. -/
def purchaseTotal (quantity : Quantity) (price : Money) :
    Option Binary64 → Except AmountDefect Money
  | some total => Money.ofBinary64 total
  | none => price.times quantity

/-- Reads the quantity, the price and the total of a purchase. The total may be at most what the
largest quantity costs at the highest price. -/
def readPurchase (limits : Limits) (quantity price : Binary64) (total : Option Binary64) :
    Except Refusal (Quantity × Money × Money) := do
  let quantity ← (Quantity.ofBinary64 quantity).mapError .ofDefect
  let price ← (Money.ofBinary64 price).mapError .ofDefect
  if quantity < 0 ∨ price < 0 then
    throw (.invalid .negativePurchase)
  if limits.maxPurchaseQuantity < quantity then
    throw (.invalid (.purchaseAbove quantity limits.maxPurchaseQuantity))
  if limits.maxPrice < price then
    throw (.invalid (.priceAbove price limits.maxPrice))
  let total ← (purchaseTotal quantity price total).mapError .ofDefect
  let largest ← (limits.maxPrice.times limits.maxPurchaseQuantity).mapError .ofDefect
  if total < 0 ∨ largest < total then
    throw (.invalid (.totalOutside total largest))
  return (quantity, price, total)

/-- One after the last place in the order of purchases. -/
def nextOrder (items : List ShoppingItem) : Nat :=
  (items.filterMap (·.purchaseOrder)).foldl Nat.max 0 + 1

def itemFor (product : ProductId) : Except Refusal ShoppingItem :=
  match d.book.itemFor? product with
  | some item => .ok item
  | none => .error (.missing (.itemFor product))

def recordPurchase (limits : Limits) (user : UserId) (product : ProductId)
    (quantity price : Binary64) (total : Option Binary64) : Except Refusal (Draft × Reply) := do
  d.checkStage .shopping "record_purchase"
  d.checkShopper user "record purchases"
  let (quantity, price, total) ← readPurchase limits quantity price total
  let item ← d.itemFor product
  let purchased := item.purchased quantity price total (nextOrder d.book.items)
  let d := d.touch (d.book.updateItem product fun _ => purchased)
  return (d.record (.purchaseRecorded user product), .purchaseRecorded purchased)

def undoPurchase (user : UserId) (product : ProductId) : Except Refusal (Draft × Reply) := do
  d.checkStage .shopping "undo_purchase"
  d.checkShopper user "undo purchases"
  let item ← d.itemFor product
  if !item.isPurchased then
    throw (.invalid (.nothingPurchased product))
  let d := d.touch (d.book.updateItem product (·.unpurchased))
  return (d.record (.purchaseUndone user product), .purchaseUndone item.unpurchased)

/-! ## Handing out -/

/-- Splits what was bought and moves on to distributing. -/
def distribute : Except Refusal (List Allocation × Draft) := do
  let (allocations, book, counters) ← d.book.handOut d.now d.counters
  let d ← { d.touch book with counters }.move .distributing
  return (allocations, d)

/-- Goes on to adjusting if other quantities were bought than the list asks for. -/
def completeShopping (user : UserId) : Except Refusal (Draft × Reply) := do
  d.checkLeader user "complete shopping"
  d.checkMove .distributing
  let imbalances := d.book.listImbalances
  if imbalances.isEmpty then
    let (allocations, d) ← d.distribute
    return (d, .shoppingCompleted d.stage [] allocations)
  else
    let d ← d.move .adjusting
    return (d, .shoppingCompleted d.stage imbalances [])

def finishAdjusting (user : UserId) (force : Bool) : Except Refusal (Draft × Reply) := do
  d.checkLeader user "finish adjusting"
  d.checkMove .distributing
  d.checkStage .adjusting "finish_adjusting"
  if !force then
    d.book.checkBalanced
  let (allocations, d) ← d.distribute
  return (d, .adjustingFinished allocations)

def markPickedUp (user : UserId) (bid : BidId) : Except Refusal (Draft × Reply) := do
  d.checkStage .distributing "mark_picked_up"
  d.checkShopper user "hand out items"
  match d.book.bid? bid with
  | none => throw (.missing (.bid bid))
  | some b =>
    if b.distributedQuantity.isNone then
      throw (.invalid (.nothingToPickUp bid))
    let picked := { b with isPickedUp := true }
    let d := d.touch (d.book.updateBid bid fun _ => picked)
    return (d.record (.bidPickedUp user b.product), .pickedUp picked)

/-! ## The end -/

def completeDistribution (user : UserId) : Except Refusal (Draft × Reply) := do
  d.checkLeader user "complete distribution"
  d.checkLive
  d.checkMove .completed
  let outstanding := d.book.outstandingPickups
  if 0 < outstanding then
    throw (.notPickedUp outstanding)
  let d ← d.move .completed
  return (d, .completed d.book.run)

def cancel (user : UserId) : Except Refusal (Draft × Reply) := do
  d.checkLeader user "cancel the run"
  d.checkLive
  let d ← d.move .cancelled
  return (d, .cancelled d.book.run)

/-! ## Execution -/

/-- A result with the counters that stay: those of the result, or of the draft before it. -/
def settle (result : Except Refusal (Draft × Reply)) :
    Except Refusal (Draft × Reply) × Counters :=
  match result with
  | .ok (after, reply) => (.ok (after, reply), after.counters)
  | .error why => (.error why, d.counters)

def execute (limits : Limits) (command : Command) : Except Refusal (Draft × Reply) × Counters :=
  let user := command.user
  match command.action with
  | .placeBid product value interestedOnly comment =>
    match d.admitBid limits user value with
    | .error why => (.error why, d.counters)
    | .ok (participation, quantity, admitted) =>
      let request := { participation, product, quantity, interestedOnly, comment }
      admitted.settle (admitted.enterBid limits user request)
  | .retractBid product => d.settle (d.retractBid user product)
  | .toggleReady => d.settle (d.toggleReady user)
  | .setHelper helper isHelper => d.settle (d.setHelper user helper isHelper)
  | .forceConfirm => d.settle (d.forceConfirm user)
  | .startShopping => d.settle (d.startShopping user)
  | .recordPurchase product quantity price total =>
    d.settle (d.recordPurchase limits user product quantity price total)
  | .undoPurchase product => d.settle (d.undoPurchase user product)
  | .completeShopping => d.settle (d.completeShopping user)
  | .finishAdjusting force => d.settle (d.finishAdjusting user force)
  | .markPickedUp bid => d.settle (d.markPickedUp user bid)
  | .completeDistribution => d.settle (d.completeDistribution user)
  | .cancel => d.settle (d.cancel user)

end BuyingClub.Draft
