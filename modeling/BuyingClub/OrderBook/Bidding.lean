import BuyingClub.Limits
import BuyingClub.OrderBook
import BuyingClub.Refusal

/-!
# Placing and retracting bids

The rules that hold in every open stage: a valid quantity, one bid per participation and product,
and a limit on the products of a run.
-/

namespace BuyingClub

structure BidRequest where
  participation : ParticipationId
  product : ProductId
  quantity : Quantity
  interestedOnly : Bool
  comment : Option String

/-- Refuses stages in which bids do not change. -/
def Stage.checkOpen (stage : Stage) (operation : String) : Except Refusal Unit :=
  if stage.isOpen then .ok () else .error (.wrongStage operation stage)

/-! ## Quantities -/

namespace Limits

def checkBid (limits : Limits) (quantity : Quantity) : Except Refusal Unit :=
  if quantity < 0 then .error (.invalid (.negativeQuantity quantity))
  else if limits.maxBidQuantity < quantity then
    .error (.invalid (.quantityAbove quantity limits.maxBidQuantity))
  else .ok ()

/-- The quantity of a bid, from a decimal number. -/
def readBid (limits : Limits) (value : Binary64) : Except Refusal Quantity := do
  let quantity ← (Quantity.ofBinary64 value).mapError .ofDefect
  limits.checkBid quantity
  return quantity

end Limits

/-! ## Bids -/

namespace BidRequest

def newBid (request : BidRequest) (id : BidId) (now : Instant) : Bid where
  id
  participation := request.participation
  product := request.product
  quantity := request.quantity
  interestedOnly := request.interestedOnly
  comment := request.comment
  distributedQuantity := none
  distributedPrice := none
  isPickedUp := false
  updatedAt := now

/-- The bid with what the request asks for now; all else stays. -/
def revise (request : BidRequest) (now : Instant) (b : Bid) : Bid :=
  { b with
    quantity := request.quantity
    interestedOnly := request.interestedOnly
    comment := request.comment
    updatedAt := now }

end BidRequest

/-- What placing a bid led to. -/
structure PlacedBid where
  bid : Bid
  /-- The bid as it was before, unless the bid is new. -/
  previous : Option Bid
  book : OrderBook
  counters : Counters

namespace OrderBook

def checkNewProduct (book : OrderBook) (limits : Limits) (product : ProductId) :
    Except Refusal Unit :=
  let products := book.products
  if !products.contains product && limits.maxProducts ≤ products.length then
    .error (.invalid (.tooManyProducts products.length limits.maxProducts))
  else .ok ()

/-- Revises the participation's bid on the product in its place, or adds one at the end. -/
def placeBid (book : OrderBook) (limits : Limits) (request : BidRequest) (now : Instant)
    (counters : Counters) : Except Refusal PlacedBid := do
  limits.checkBid request.quantity
  match book.bidOf? request.participation request.product with
  | some previous =>
    let isTarget (b : Bid) := b.isOf request.participation request.product
    return {
      bid := request.revise now previous
      previous := some previous
      book := { book with bids := updateFirst isTarget (request.revise now) book.bids }
      counters }
  | none =>
    book.checkNewProduct limits request.product
    let (id, counters) := counters.drawBid
    let bid := request.newBid id now
    return { bid, previous := none, book := { book with bids := book.bids ++ [bid] }, counters }

/-- Removes the participation's bid on the product. -/
def retractBid (book : OrderBook) (participation : ParticipationId) (product : ProductId) :
    Except Refusal (Bid × OrderBook) :=
  match book.bidOf? participation product with
  | none => .error (.missing (.bidOf participation product))
  | some bid => .ok (bid, { book with bids := book.bids.eraseP (·.isOf participation product) })

end OrderBook

end BuyingClub
