import BuyingClub.Amount
import BuyingClub.Identifier

/-!
# Ascending lists

Lists that go up by identifier and hold each identifier once.
-/

namespace BuyingClub

/-- The ascending list with `x` put in its place, unless it holds it already. -/
def insertAscending {kind : Kind} (x : Identifier kind) : List (Identifier kind) →
    List (Identifier kind)
  | [] => [x]
  | y :: rest => if x < y then x :: y :: rest else if x = y then y :: rest
    else y :: insertAscending x rest

/-- The totals, ascending by product, with `amount` added to one of them. -/
def addTotal (product : ProductId) (amount : Quantity) : List (ProductId × Quantity) →
    List (ProductId × Quantity)
  | [] => [(product, amount)]
  | (p, total) :: rest =>
    if product < p then (product, amount) :: (p, total) :: rest
    else if product = p then (p, total + amount) :: rest
    else (p, total) :: addTotal product amount rest

end BuyingClub
