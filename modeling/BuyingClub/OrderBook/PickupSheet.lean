import BuyingClub.Directory
import BuyingClub.OrderBook
import BuyingClub.Refusal

/-!
# The pickup sheet

What every user gets: those with something left to collect first, then by name.
-/

namespace BuyingClub

/-- What a user gets for one bid. -/
structure PickupLine where
  bid : BidId
  product : ProductId
  productName : String
  requestedQuantity : Quantity
  distributedQuantity : Quantity
  price : Money
  subtotal : Money
  isPickedUp : Bool

structure PickupRow where
  user : UserId
  userName : String
  lines : List PickupLine
  total : Money
  allPickedUp : Bool

namespace PickupRow

/-- Lines go by product name; those of one name stay in the order of the bids. -/
def ofLines (users : Names .user) (user : UserId) (lines : List PickupLine) : PickupRow :=
  let lines := lines.mergeSort fun a b => decide (a.productName ≤ b.productName)
  { user
    userName := users.display user
    lines
    total := (lines.map (·.subtotal)).sum
    allPickedUp := lines.all (·.isPickedUp) }

/-- Whether a row may stand before another. -/
def notAfter (a b : PickupRow) : Bool :=
  if a.allPickedUp = b.allPickedUp then decide (a.userName ≤ b.userName) else !a.allPickedUp

end PickupRow

namespace OrderBook

/-- The line of a committed bid for which something was handed out, under its owner. -/
def pickupLine? (book : OrderBook) (products : Names .product) (b : Bid) :
    Except Refusal (Option (UserId × PickupLine)) :=
  match b.isCommitted, b.distributedQuantity, book.bidder? b with
  | true, some quantity, some user => do
    let price := b.distributedPrice.getD 0
    let subtotal ← (price.times quantity).mapError .ofDefect
    return some (user, {
      bid := b.id
      product := b.product
      productName := products.display b.product
      requestedQuantity := b.quantity
      distributedQuantity := quantity
      price
      subtotal
      isPickedUp := b.isPickedUp })
  | _, _, _ => return none

def pickupLines (book : OrderBook) (products : Names .product) :
    List Bid → Except Refusal (List (UserId × PickupLine))
  | [] => return []
  | b :: rest => do
    let line ← book.pickupLine? products b
    let lines ← book.pickupLines products rest
    return line.toList ++ lines

/-- The users with lines, ascending. -/
def ownersOf (lines : List (UserId × PickupLine)) : List UserId :=
  lines.foldl (fun known line => insertAscending line.1 known) []

/-- The lines of one user. -/
def linesOf (user : UserId) (lines : List (UserId × PickupLine)) : List PickupLine :=
  lines.filterMap fun line => if line.1 = user then some line.2 else none

/-- A row per user with lines. Users of one name go by their identifiers. -/
def pickupSheet (book : OrderBook) (products : Names .product) (users : Names .user) :
    Except Refusal (List PickupRow) := do
  let lines ← book.pickupLines products book.bids
  let rows := (ownersOf lines).map fun user => PickupRow.ofLines users user (linesOf user lines)
  return rows.mergeSort PickupRow.notAfter

end OrderBook

end BuyingClub
