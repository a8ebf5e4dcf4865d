import BuyingClub.Amount
import BuyingClub.Identifier

/-! # Imbalances between what was asked for and what was bought -/

namespace BuyingClub

/-- A product of which another quantity was bought than was asked for. -/
structure Imbalance where
  product : ProductId
  requested : Quantity
  purchased : Quantity
deriving DecidableEq

namespace Imbalance

/-- Negative for a shortage, positive for a surplus. -/
def delta (m : Imbalance) : Quantity := m.purchased - m.requested

def isShortage (m : Imbalance) : Bool := m.delta < 0

def text (m : Imbalance) : String :=
  let direction := if m.isShortage then " short by " else " over by "
  m.product.text ++ direction ++ m.delta.abs.text ++ " (requested " ++ m.requested.text ++
    ", purchased " ++ m.purchased.text ++ ")"

end Imbalance

end BuyingClub
