import BuyingClub.Ascending
import BuyingClub.OrderBook.Entry
import BuyingClub.Run

/-!
# Order books

An order book is a run with all that belongs to it: who takes part, what they bid and what is on
the shopping list. It is stored and read as a whole.
-/

namespace BuyingClub

/-- The list with `f` applied to the first element that passes the test. -/
def updateFirst {α : Type} (test : α → Bool) (f : α → α) : List α → List α
  | [] => []
  | x :: rest => if test x then f x :: rest else x :: updateFirst test f rest

theorem length_updateFirst {α : Type} (test : α → Bool) (f : α → α) (xs : List α) :
    (updateFirst test f xs).length = xs.length := by
  induction xs with
  | nil => rfl
  | cons x rest ih =>
    unfold updateFirst
    split <;> simp [ih]

theorem map_updateFirst {α β : Type} (test : α → Bool) (f : α → α) (g : α → β)
    (keeps : ∀ x, g (f x) = g x) (xs : List α) : (updateFirst test f xs).map g = xs.map g := by
  induction xs with
  | nil => rfl
  | cons x rest ih =>
    unfold updateFirst
    split <;> simp [ih, keeps]

/-! ## The book -/

structure OrderBook where
  run : Run
  participations : List Participation
  /-- In the order of their creation, in which a shortage is split. -/
  bids : List Bid
  items : List ShoppingItem
deriving DecidableEq

namespace OrderBook

def start (run : Run) (leader : Participation) : OrderBook where
  run
  participations := [leader]
  bids := []
  items := []

variable (book : OrderBook)

def leader? : Option Participation :=
  book.participations.find? fun p => p.isLeader && !p.isRemoved

/-- The user's part in the run, unless it was removed. -/
def participationOf? (user : UserId) : Option Participation :=
  book.participations.find? fun p => p.user = user && !p.isRemoved

/-- Finds removed ones too. -/
def participation? (id : ParticipationId) : Option Participation :=
  book.participations.find? (·.id = id)

def activeParticipations : List Participation :=
  book.participations.filter (!·.isRemoved)

def bid? (id : BidId) : Option Bid :=
  book.bids.find? (·.id = id)

def bidOf? (participation : ParticipationId) (product : ProductId) : Option Bid :=
  book.bids.find? (·.isOf participation product)

def bidsFor (product : ProductId) : List Bid :=
  book.bids.filter (·.product = product)

/-- The products with bids of any kind, ascending. -/
def products : List ProductId :=
  book.bids.foldl (fun known b => insertAscending b.product known) []

def itemFor? (product : ProductId) : Option ShoppingItem :=
  book.items.find? (·.product = product)

def bidder? (b : Bid) : Option UserId :=
  (book.participation? b.participation).map (·.user)

/-! ### Totals -/

/-- The committed quantity of a product. -/
def demand (product : ProductId) : Quantity :=
  ((book.bids.filter (·.countsFor product)).map (·.quantity)).sum

/-- The committed quantity of every product with bids, by product, in one pass over the bids. -/
def demands : List (ProductId × Quantity) :=
  book.bids.foldl (fun totals b => addTotal b.product b.committedQuantity totals) []

/-! ### Changes -/

def updateParticipation (id : ParticipationId) (f : Participation → Participation) : OrderBook :=
  { book with participations := updateFirst (·.id = id) f book.participations }

def updateBid (id : BidId) (f : Bid → Bid) : OrderBook :=
  { book with bids := updateFirst (·.id = id) f book.bids }

def updateItem (product : ProductId) (f : ShoppingItem → ShoppingItem) : OrderBook :=
  { book with items := updateFirst (·.product = product) f book.items }

end OrderBook

end BuyingClub
