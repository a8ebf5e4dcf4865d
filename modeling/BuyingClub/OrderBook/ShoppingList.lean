import BuyingClub.OrderBook
import BuyingClub.Refusal

/-!
# The shopping list

The committed totals become what is to be bought, once per run.
-/

namespace BuyingClub

/-- One line per total, in the order of the totals. -/
def itemsToBuy (run : RunId) : List (ProductId × Quantity) → Counters →
    List ShoppingItem × Counters
  | [], counters => ([], counters)
  | (product, total) :: rest, counters =>
    let (id, counters) := counters.drawItem
    let (items, counters) := itemsToBuy run rest counters
    (ShoppingItem.toBuy id run product total :: items, counters)

/-- The book with a line for every product with a positive committed total. -/
def OrderBook.drawUpList (book : OrderBook) (counters : Counters) :
    Except Refusal (OrderBook × Counters) :=
  if book.items.isEmpty then
    let positive := book.demands.filter fun entry => 0 < entry.2
    let (items, counters) := itemsToBuy book.run.id positive counters
    .ok ({ book with items }, counters)
  else .error (.listExists book.run.id)

end BuyingClub
