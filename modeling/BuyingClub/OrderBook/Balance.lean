import BuyingClub.OrderBook
import BuyingClub.Refusal

/-!
# Balance between bids and purchases

When other quantities were bought than were asked for, bidders adjust. In a shortage bids shrink,
in a surplus they grow, and never past the balance. It is measured against the committed total of
the moment, so a product that is balanced keeps its bids.
-/

namespace BuyingClub.OrderBook

variable (book : OrderBook)

/-! ## Imbalances -/

/-- The imbalance of a bought item against a requested quantity. -/
def imbalanceOf? (item : ShoppingItem) (requested : Quantity) : Option Imbalance :=
  match item.bought? with
  | none => none
  | some purchased =>
    if purchased = requested then none else some ⟨item.product, requested, purchased⟩

/-- Against the quantities on the shopping list. -/
def listImbalances : List Imbalance :=
  book.items.filterMap fun item => imbalanceOf? item item.requestedQuantity

/-- Against the committed totals. -/
def imbalances : List Imbalance :=
  book.items.filterMap fun item => imbalanceOf? item (book.demand item.product)

def checkBalanced : Except Refusal Unit :=
  let remaining := book.imbalances
  if remaining.isEmpty then .ok () else .error (.unbalanced remaining)

/-! ## Changes while adjusting -/

def purchasedQuantity (product : ProductId) : Except Refusal Quantity :=
  match book.itemFor? product with
  | none => .error (.invalid (.notListed product))
  | some item =>
    match item.bought? with
    | none => .error (.invalid (.notBought product))
    | some quantity => .ok quantity

/-- Whether a committed bid may go from one quantity to another, of which `delta` more were bought
than asked for. -/
def checkStep (product : ProductId) (delta current quantity : Quantity) : Except Refusal Unit :=
  if delta < 0 then
    let shortage := delta.abs
    let floor := max (current - shortage) 0
    if current < quantity then .error (.invalid (.onlyReduction product shortage))
    else if quantity < floor then .error (.invalid (.belowFloor product shortage floor))
    else .ok ()
  else if 0 < delta then
    let ceiling := current + delta
    if quantity < current then .error (.invalid (.onlyIncrease product delta))
    else if ceiling < quantity then .error (.invalid (.aboveCeiling product delta ceiling))
    else .ok ()
  else .error (.invalid (.alreadyBalanced product))

/-- Checks a change of a bid while the run is adjusting. -/
def checkChange (participation : ParticipationId) (product : ProductId) (quantity : Quantity)
    (interestedOnly : Bool) : Except Refusal Unit := do
  let purchased ← book.purchasedQuantity product
  match book.bidOf? participation product with
  | none => .error (.invalid (.closedToNewBids product))
  | some current =>
    if current.interestedOnly ≠ interestedOnly then .error (.invalid .fixedInterest)
    else if current.interestedOnly ∨ quantity = current.quantity then .ok ()
    else checkStep product (purchased - book.demand product) current.quantity quantity

/-- Why a committed bid on the product stays. -/
def holding (product : ProductId) : Holding :=
  match (book.itemFor? product).bind (·.bought?) with
  | none => .notBought
  | some purchased =>
    let delta := purchased - book.demand product
    if delta < 0 then .shortage else if 0 < delta then .surplus else .balanced

/-- While the run is adjusting, only a bid of mere interest may be retracted. -/
def checkRetraction (participation : ParticipationId) (product : ProductId) :
    Except Refusal Unit :=
  match book.bidOf? participation product with
  | none => .error (.missing (.bidOf participation product))
  | some bid =>
    if bid.interestedOnly then .ok ()
    else .error (.invalid (.heldBid product (book.holding product)))

end BuyingClub.OrderBook
