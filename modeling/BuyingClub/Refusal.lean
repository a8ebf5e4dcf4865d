import BuyingClub.Imbalance
import BuyingClub.Stage

/-!
# Refusals

Why an operation was not done. Each reason has a constructor, and one function gives its wording.
-/

namespace BuyingClub

/-! ## Reasons -/

/-- Why the store did not answer as asked. -/
inductive StoreRefusal where
  | unknown (run : RunId)
  | taken (run : RunId)
  | staleVersion (expected found : Nat)
  | staleStage (expected found : Stage)
  | unavailable (reason : String)
deriving DecidableEq

def StoreRefusal.message : StoreRefusal → String
  | unknown run => "run " ++ run.text ++ " not found"
  | taken run => "run " ++ run.text ++ " already exists"
  | staleVersion expected found =>
    "stale write: expected version " ++ toString expected ++ ", found " ++ toString found
  | staleStage expected found =>
    "stale write: expected state " ++ expected.name ++ ", found " ++ found.name
  | unavailable reason => "store unavailable: " ++ reason

/-- Why the worker of a run gave no answer. -/
inductive WorkerFailure where
  | closed
  | dropped
  | crashed (reason : String)
deriving DecidableEq

def WorkerFailure.message : WorkerFailure → String
  | closed => "Actor closed"
  | dropped => "Actor dropped response channel"
  | crashed reason => "Actor task failed: " ++ reason

/-- What was looked for in vain. -/
inductive Missing where
  | run (id : RunId)
  | store (id : StoreId)
  | participationOf (user : UserId)
  | leaderOf (run : RunId)
  | bid (id : BidId)
  | bidOf (participation : ParticipationId) (product : ProductId)
  | itemFor (product : ProductId)
  | named (entity id : String)
deriving DecidableEq

namespace Missing

def entity : Missing → String
  | run _ => "run"
  | store _ => "store"
  | participationOf _ => "participation"
  | leaderOf _ => "leader participation"
  | bid _ => "bid"
  | bidOf _ _ => "bid"
  | itemFor _ => "shopping list item"
  | named entity _ => entity

def id : Missing → String
  | run id => id.text
  | store id => id.text
  | participationOf user => user.text
  | leaderOf inRun => inRun.text
  | bid id => id.text
  | bidOf participation product => participation.text ++ "/" ++ product.text
  | itemFor product => product.text
  | named _ id => id

end Missing

/-- Why a user may not do something. -/
inductive Prohibition where
  | notMember (user : UserId) (group : GroupId)
  | leaderOnly (operation : String)
  | shopperOnly (operation : String)
  | stated (reason : String)
deriving DecidableEq

def Prohibition.message : Prohibition → String
  | notMember user group => user.text ++ " is not a member of " ++ group.text
  | leaderOnly operation => "only the run leader can " ++ operation
  | shopperOnly operation => "only the leader or a helper can " ++ operation
  | stated reason => reason

/-- Why a bid on a product that is out of balance may not be retracted. -/
inductive Holding where
  | shortage | surplus | balanced | notBought
deriving DecidableEq

def Holding.message : Holding → String
  | shortage => "it would deepen the shortage; reduce the bid instead"
  | surplus => "the surplus must be absorbed; increase the bid instead"
  | balanced => "the product is already balanced"
  | notBought => "bids are fixed while the run is adjusting"

/-- What is wrong with the data of an operation. -/
inductive Invalidity where
  | amount (defect : AmountDefect)
  | negativeQuantity (quantity : Quantity)
  | quantityAbove (quantity limit : Quantity)
  | tooManyProducts (count limit : Nat)
  | tooManyParticipants (count limit : Nat)
  | closedToNewcomers
  | closedToNewBids (product : ProductId)
  | fixedInterest
  | notListed (product : ProductId)
  | notBought (product : ProductId)
  | alreadyBalanced (product : ProductId)
  | onlyReduction (product : ProductId) (shortage : Quantity)
  | belowFloor (product : ProductId) (shortage floor : Quantity)
  | onlyIncrease (product : ProductId) (surplus : Quantity)
  | aboveCeiling (product : ProductId) (surplus ceiling : Quantity)
  | heldBid (product : ProductId) (why : Holding)
  | negativePurchase
  | purchaseAbove (quantity limit : Quantity)
  | priceAbove (price limit : Money)
  | totalOutside (total limit : Money)
  | nothingPurchased (product : ProductId)
  | nothingToPickUp (bid : BidId)
  | stated (reason : String)
deriving DecidableEq

def Invalidity.message : Invalidity → String
  | amount defect => defect.message
  | negativeQuantity quantity => "quantity must not be negative, got " ++ quantity.text
  | quantityAbove quantity limit =>
    "quantity " ++ quantity.text ++ " exceeds the maximum of " ++ limit.text
  | tooManyProducts count limit =>
    "run already has bids on " ++ toString count ++ " products (limit " ++ toString limit ++ ")"
  | tooManyParticipants count limit =>
    "run already has " ++ toString count ++ " participants (limit " ++ toString limit ++ ")"
  | closedToNewcomers => "no new participants while the run is adjusting"
  | closedToNewBids product => "no new bids on " ++ product.text ++ " while the run is adjusting"
  | fixedInterest => "interest-only flag cannot change while the run is adjusting"
  | notListed product => product.text ++ " is not on the shopping list"
  | notBought product => product.text ++ " was not purchased; its bids are fixed"
  | alreadyBalanced product => product.text ++ " is already balanced; its bids are fixed"
  | onlyReduction product shortage =>
    product.text ++ " is short by " ++ shortage.text ++ "; bids can only be reduced"
  | belowFloor product shortage floor =>
    product.text ++ " is short by " ++ shortage.text ++ "; this bid cannot go below " ++ floor.text
  | onlyIncrease product surplus =>
    product.text ++ " has a surplus of " ++ surplus.text ++ "; bids can only be increased"
  | aboveCeiling product surplus ceiling =>
    product.text ++ " has a surplus of " ++ surplus.text ++ "; this bid cannot exceed " ++
      ceiling.text
  | heldBid product why => "cannot retract bid on " ++ product.text ++ ": " ++ why.message
  | negativePurchase => "purchase amounts must not be negative"
  | purchaseAbove quantity limit =>
    "purchased quantity " ++ quantity.text ++ " exceeds the limit of " ++ limit.text
  | priceAbove price limit => "price " ++ price.text ++ " exceeds the limit of " ++ limit.text
  | totalOutside total limit =>
    "purchase total " ++ total.text ++ " must be between 0.00 and " ++ limit.text
  | nothingPurchased product => product.text ++ " has not been purchased"
  | nothingToPickUp bid => bid.text ++ " has nothing to pick up"
  | stated reason => reason

/-! ## Refusals -/

inductive Refusal where
  | missing (what : Missing)
  | forbidden (why : Prohibition)
  | noSuchMove (old new : Stage) (allowed : List Stage)
  | wrongStage (operation : String) (stage : Stage)
  | invalid (why : Invalidity)
  | unbalanced (remaining : List Imbalance)
  | finished (stage : Stage)
  | notPickedUp (outstanding : Nat)
  | listExists (run : RunId)
  | store (why : StoreRefusal)
  | worker (why : WorkerFailure)
deriving DecidableEq

namespace Refusal

def stageList (stages : List Stage) : String :=
  if stages.isEmpty then "none" else ", ".intercalate (stages.map (·.name))

def message : Refusal → String
  | missing what => what.entity ++ " not found: " ++ what.id
  | forbidden why => "forbidden: " ++ why.message
  | noSuchMove old new allowed =>
    "cannot move run from " ++ old.name ++ " to " ++ new.name ++ " (allowed: " ++
      stageList allowed ++ ")"
  | wrongStage operation stage => operation ++ " is not allowed while the run is " ++ stage.name
  | invalid why => "validation error: " ++ why.message
  | unbalanced remaining =>
    "adjustment incomplete: " ++ "; ".intercalate (remaining.map (·.text))
  | finished stage => "run is already " ++ stage.name
  | notPickedUp outstanding => toString outstanding ++ " distributed bid(s) not picked up yet"
  | listExists run => "shopping list for " ++ run.text ++ " was already generated"
  | store why => "storage error: " ++ why.message
  | worker why => "run actor error: " ++ why.message

def ofDefect (defect : AmountDefect) : Refusal := invalid (.amount defect)

end Refusal

/-- Refuses a move that the table of stages does not hold. -/
def Stage.checkMove (old new : Stage) : Except Refusal Unit :=
  if old.canMove new then .ok () else .error (.noSuchMove old new old.next)

end BuyingClub
