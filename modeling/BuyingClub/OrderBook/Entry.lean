import BuyingClub.Amount
import BuyingClub.Identifier
import BuyingClub.Instant

/-!
# Entries of an order book

Who takes part in a run, what they bid, and what is on the shopping list.
-/

namespace BuyingClub

/-! ## Participants -/

/-- A user's part in a run. -/
structure Participation where
  id : ParticipationId
  run : RunId
  user : UserId
  isLeader : Bool
  isReady : Bool
  isRemoved : Bool
  isHelper : Bool
  joinedAt : Instant
deriving DecidableEq

namespace Participation

def join (id : ParticipationId) (run : RunId) (user : UserId) (isLeader : Bool) (now : Instant) :
    Participation where
  id
  run
  user
  isLeader
  isReady := false
  isRemoved := false
  isHelper := false
  joinedAt := now

/-- Whether the participant may record purchases and hand out goods. -/
def mayShop (p : Participation) : Bool :=
  !p.isRemoved && (p.isLeader || p.isHelper)

end Participation

/-! ## Bids -/

/-- How much of a product a participant asks for. -/
structure Bid where
  id : BidId
  participation : ParticipationId
  product : ProductId
  quantity : Quantity
  /-- Interest without commitment: never counted in totals. -/
  interestedOnly : Bool
  comment : Option String
  /-- What the participant got in the end. -/
  distributedQuantity : Option Quantity
  distributedPrice : Option Money
  isPickedUp : Bool
  updatedAt : Instant
deriving DecidableEq

namespace Bid

def isCommitted (b : Bid) : Bool := !b.interestedOnly

/-- What the bid adds to the total of its product. -/
def committedQuantity (b : Bid) : Quantity :=
  if b.isCommitted then b.quantity else 0

/-- Whether the bid counts towards the total of the product. -/
def countsFor (b : Bid) (product : ProductId) : Bool :=
  b.product = product && b.isCommitted

def isOf (b : Bid) (participation : ParticipationId) (product : ProductId) : Bool :=
  b.participation = participation && b.product = product

/-- Whether goods of this bid wait to be collected. -/
def awaitsPickup (b : Bid) : Bool :=
  b.isCommitted && !b.isPickedUp && b.distributedQuantity.any (0 < ·)

/-- The bid with what was handed out for it. -/
def handedOut (b : Bid) (quantity : Quantity) (price : Money) : Bid :=
  { b with distributedQuantity := some quantity, distributedPrice := some price }

end Bid

/-! ## Shopping items -/

/-- A line of the shopping list. -/
structure ShoppingItem where
  id : ItemId
  run : RunId
  product : ProductId
  /-- The committed total when the list was drawn up, or, after an inexact split, what had to be
  split. -/
  requestedQuantity : Quantity
  purchasedQuantity : Option Quantity
  purchasedPrice : Option Money
  purchasedTotal : Option Money
  isPurchased : Bool
  /-- The place in the order of purchases. -/
  purchaseOrder : Option Nat
deriving DecidableEq

namespace ShoppingItem

def toBuy (id : ItemId) (run : RunId) (product : ProductId) (requested : Quantity) :
    ShoppingItem where
  id
  run
  product
  requestedQuantity := requested
  purchasedQuantity := none
  purchasedPrice := none
  purchasedTotal := none
  isPurchased := false
  purchaseOrder := none

/-- How much was bought, if the item was. -/
def bought? (item : ShoppingItem) : Option Quantity :=
  if item.isPurchased then item.purchasedQuantity else none

/-- The item as bought; an item bought before keeps its place in the order. -/
def purchased (item : ShoppingItem) (quantity : Quantity) (price total : Money) (order : Nat) :
    ShoppingItem :=
  { item with
    purchasedQuantity := some quantity
    purchasedPrice := some price
    purchasedTotal := some total
    isPurchased := true
    purchaseOrder := item.purchaseOrder.or (some order) }

def unpurchased (item : ShoppingItem) : ShoppingItem :=
  { item with
    purchasedQuantity := none
    purchasedPrice := none
    purchasedTotal := none
    isPurchased := false
    purchaseOrder := none }

end ShoppingItem

end BuyingClub
