import BuyingClub.OrderBook.Handout
import BuyingClub.Imbalance

/-!
# Commands and replies

What users ask of a run, and what they are told when it was done.
-/

namespace BuyingClub

inductive Action where
  | placeBid (product : ProductId) (quantity : Binary64) (interestedOnly : Bool)
      (comment : Option String)
  | retractBid (product : ProductId)
  | toggleReady
  | setHelper (helper : UserId) (isHelper : Bool)
  | forceConfirm
  | startShopping
  /-- Without a total, the price per unit times the quantity is meant. -/
  | recordPurchase (product : ProductId) (quantity price : Binary64) (total : Option Binary64)
  | undoPurchase (product : ProductId)
  | completeShopping
  | finishAdjusting (force : Bool)
  | markPickedUp (bid : BidId)
  | completeDistribution
  | cancel

structure Command where
  user : UserId
  action : Action

inductive Reply where
  | bidPlaced (bid : Bid) (isNew : Bool) (stage : Stage)
  | bidRetracted (bid : Bid) (stage : Stage)
  | readyToggled (isReady : Bool) (stage : Stage)
  | helperSet (participation : Participation)
  | confirmed (run : Run)
  | shoppingStarted (items : List ShoppingItem)
  | purchaseRecorded (item : ShoppingItem)
  | purchaseUndone (item : ShoppingItem)
  | shoppingCompleted (stage : Stage) (imbalances : List Imbalance) (allocations : List Allocation)
  | adjustingFinished (allocations : List Allocation)
  | pickedUp (bid : Bid)
  | completed (run : Run)
  | cancelled (run : Run)

/-- Whether the run ended with this reply. -/
def Reply.isFinal : Reply → Bool
  | completed _ | cancelled _ => true
  | _ => false

end BuyingClub
