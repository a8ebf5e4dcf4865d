import BuyingClub.Proofs.OrderBook.Operations

/-!
# Operations in place

Placing and retracting a bid and drawing up the list, once more as single steps on one book that is
written over. They come to what the operations give, and a refusal finds the book and the counters
as they were.
-/

namespace BuyingClub

/-- Steps on a book and the counters, up to a refusal. What was written before it stays written. -/
abbrev Edit := ExceptT Refusal (StateM (OrderBook × Counters))

namespace Edit

variable {α β : Type}

/-- What the steps answer on this book, and the book and the counters after them. -/
def on (steps : Edit α) (book : OrderBook) (counters : Counters) :
    Except Refusal α × OrderBook × Counters :=
  steps.run.run (book, counters)

/-! ## Single steps -/

def look : Edit OrderBook := do return (← get).1

def check (outcome : Except Refusal Unit) : Edit Unit :=
  match outcome with
  | .ok () => return
  | .error why => throw why

def drawBid : Edit BidId := do
  let (book, counters) ← get
  let (id, counters) := counters.drawBid
  set (book, counters)
  return id

def drawItem : Edit ItemId := do
  let (book, counters) ← get
  let (id, counters) := counters.drawItem
  set (book, counters)
  return id

def writeBids (bids : List Bid) : Edit Unit :=
  modify fun (book, counters) => ({ book with bids }, counters)

def writeItems (items : List ShoppingItem) : Edit Unit :=
  modify fun (book, counters) => ({ book with items }, counters)

section

variable (book : OrderBook) (counters : Counters)

theorem on_bind (steps : Edit α) (next : α → Edit β) :
    (steps >>= next).on book counters =
      match steps.on book counters with
      | (.ok a, book, counters) => (next a).on book counters
      | (.error why, book, counters) => (.error why, book, counters) := by
  simp only [on, ExceptT.run_bind, StateT.run_bind]
  rcases steps.run.run (book, counters) with ⟨_ | _, _, _⟩ <;> rfl

theorem on_pure (a : α) : (pure a : Edit α).on book counters = (.ok a, book, counters) :=
  rfl

theorem on_look : look.on book counters = (.ok book, book, counters) := rfl

theorem on_check (outcome : Except Refusal Unit) :
    (check outcome).on book counters = (outcome, book, counters) := by
  cases outcome <;> rfl

theorem on_drawItem :
    drawItem.on book counters = (.ok ⟨counters.item⟩, book, counters.drawItem.2) := rfl

end

/-! ## Bids -/

/-- Gives the bid, and the bid as it was before unless it is new. -/
def placeBid (limits : Limits) (request : BidRequest) (now : Instant) :
    Edit (Bid × Option Bid) := do
  check (limits.checkBid request.quantity)
  let book ← look
  match book.bidOf? request.participation request.product with
  | some previous =>
    writeBids (updateFirst (·.isOf request.participation request.product) (request.revise now)
      book.bids)
    return (request.revise now previous, some previous)
  | none =>
    check (book.checkNewProduct limits request.product)
    let id ← drawBid
    let bid := request.newBid id now
    writeBids (book.bids ++ [bid])
    return (bid, none)

def retractBid (participation : ParticipationId) (product : ProductId) : Edit Bid := do
  let book ← look
  match book.bidOf? participation product with
  | none => throw (.missing (.bidOf participation product))
  | some bid =>
    writeBids (book.bids.eraseP (·.isOf participation product))
    return bid

theorem on_placeBid (limits : Limits) (request : BidRequest) (now : Instant) (book : OrderBook)
    (counters : Counters) :
    (placeBid limits request now).on book counters =
      match book.placeBid limits request now counters with
      | .ok placed => (.ok (placed.bid, placed.previous), placed.book, placed.counters)
      | .error why => (.error why, book, counters) := by
  unfold placeBid OrderBook.placeBid
  rw [on_bind, on_check]
  cases limits.checkBid request.quantity with
  | error why => rfl
  | ok =>
    simp only [on_bind, on_look]
    cases book.bidOf? request.participation request.product with
    | some previous => rfl
    | none =>
      simp only [on_bind, on_check]
      cases book.checkNewProduct limits request.product with
      | error why => rfl
      | ok => rfl

theorem on_retractBid (participation : ParticipationId) (product : ProductId) (book : OrderBook)
    (counters : Counters) :
    (retractBid participation product).on book counters =
      match book.retractBid participation product with
      | .ok (bid, after) => (.ok bid, after, counters)
      | .error why => (.error why, book, counters) := by
  unfold retractBid OrderBook.retractBid
  simp only [on_bind, on_look]
  cases book.bidOf? participation product with
  | none => rfl
  | some bid => rfl

/-! ## The list -/

def drawUpLine (run : RunId) (total : ProductId × Quantity) : Edit ShoppingItem := do
  let id ← drawItem
  return .toBuy id run total.1 total.2

/-- Gives the list. -/
def drawUpList : Edit (List ShoppingItem) := do
  let book ← look
  if book.items.isEmpty then
    let positive := book.demands.filter fun entry => 0 < entry.2
    let items ← positive.mapM (drawUpLine book.run.id)
    writeItems items
    return items
  else throw (.listExists book.run.id)

theorem on_mapM_drawUpLine (run : RunId) (totals : List (ProductId × Quantity)) (book : OrderBook)
    (counters : Counters) :
    (totals.mapM (drawUpLine run)).on book counters =
      (.ok (itemsToBuy run totals counters).1, book, (itemsToBuy run totals counters).2) := by
  induction totals generalizing counters with
  | nil => rfl
  | cons entry rest ih =>
    rw [List.mapM_cons]
    unfold drawUpLine at ih ⊢
    simp only [on_bind, on_drawItem, on_pure, ih]
    rfl

theorem on_drawUpList (book : OrderBook) (counters : Counters) :
    drawUpList.on book counters =
      match book.drawUpList counters with
      | .ok (after, counters) => (.ok after.items, after, counters)
      | .error why => (.error why, book, counters) := by
  unfold drawUpList OrderBook.drawUpList
  rw [on_bind, on_look]
  dsimp only
  split
  · rw [on_bind, on_mapM_drawUpLine]
    rfl
  · rfl

end Edit

end BuyingClub
