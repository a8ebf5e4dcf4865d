/-!
# Identifiers

Each kind of thing has identifiers of its own, so that a product is never taken for a user. Runs,
participations, bids and shopping-list items get theirs here, in sequence; groups, stores, products
and users bring theirs along.
-/

namespace BuyingClub

/-- What an identifier can name. -/
inductive Kind where
  | run | participation | bid | item | group | store | product | user
deriving DecidableEq

def Kind.name : Kind → String
  | run => "run"
  | participation => "participation"
  | bid => "bid"
  | item => "item"
  | group => "group"
  | store => "store"
  | product => "product"
  | user => "user"

structure Identifier (kind : Kind) where
  number : Nat
deriving DecidableEq

namespace Identifier

variable {kind : Kind}

instance : LE (Identifier kind) := ⟨fun a b => a.number ≤ b.number⟩
instance : LT (Identifier kind) := ⟨fun a b => a.number < b.number⟩
instance (a b : Identifier kind) : Decidable (a ≤ b) := inferInstanceAs (Decidable (_ ≤ (_ : Nat)))
instance (a b : Identifier kind) : Decidable (a < b) := inferInstanceAs (Decidable (_ < (_ : Nat)))

def text (id : Identifier kind) : String :=
  kind.name ++ "_" ++ toString id.number

end Identifier

abbrev RunId := Identifier .run
abbrev ParticipationId := Identifier .participation
abbrev BidId := Identifier .bid
abbrev ItemId := Identifier .item
abbrev GroupId := Identifier .group
abbrev StoreId := Identifier .store
abbrev ProductId := Identifier .product
abbrev UserId := Identifier .user

/-! ## Handing out identifiers -/

/-- The greatest number in use for each kind of thing that is numbered here. -/
structure Watermark where
  run : Nat
  participation : Nat
  bid : Nat
  item : Nat
deriving DecidableEq

namespace Watermark

def zero : Watermark := ⟨0, 0, 0, 0⟩

/-- Kind by kind, the greater number. -/
def max (a b : Watermark) : Watermark :=
  ⟨Nat.max a.run b.run, Nat.max a.participation b.participation, Nat.max a.bid b.bid,
    Nat.max a.item b.item⟩

end Watermark

/-- The number after `n`, in 64 bits. -/
def followingNumber (n : Nat) : Nat := (n + 1) % UInt64.size

/-- The next number of each kind. -/
structure Counters where
  run : Nat
  participation : Nat
  bid : Nat
  item : Nat
deriving DecidableEq

namespace Counters

/-- Counters that go on after the numbers in use. -/
def startingAfter (mark : Watermark) : Counters :=
  ⟨followingNumber mark.run, followingNumber mark.participation, followingNumber mark.bid,
    followingNumber mark.item⟩

def start : Counters := startingAfter .zero

def drawRun (c : Counters) : RunId × Counters :=
  (⟨c.run⟩, { c with run := followingNumber c.run })

def drawParticipation (c : Counters) : ParticipationId × Counters :=
  (⟨c.participation⟩, { c with participation := followingNumber c.participation })

def drawBid (c : Counters) : BidId × Counters :=
  (⟨c.bid⟩, { c with bid := followingNumber c.bid })

def drawItem (c : Counters) : ItemId × Counters :=
  (⟨c.item⟩, { c with item := followingNumber c.item })

end Counters

end BuyingClub
