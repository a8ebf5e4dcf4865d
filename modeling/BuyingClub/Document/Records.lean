import BuyingClub.Document
import BuyingClub.Imbalance
import BuyingClub.Limits
import BuyingClub.OrderBook
import BuyingClub.Text.Timestamp

/-!
# Records as documents

How records are written and read. Amounts are doubles, instants are timestamps, identifiers are
whole numbers of 64 bits. Fields that are not known are passed over.
-/

namespace BuyingClub

open Document

/-! ## Plain values -/

def Quantity.toDocument (q : Quantity) : Document := .number q.toBinary64

def Quantity.ofDocument? (d : Document) : Option Quantity :=
  d.number?.bind fun x => (Quantity.ofBinary64 x).toOption

def Money.toDocument (m : Money) : Document := .number m.toBinary64

def Money.ofDocument? (d : Document) : Option Money :=
  d.number?.bind fun x => (Money.ofBinary64 x).toOption

def Document.ofNat (n : Nat) : Document := integer n

/-- A count of 64 bits. -/
def Document.size? (d : Document) : Option Nat := d.count? (2 ^ 64)

def Identifier.toDocument {kind : Kind} (id : Identifier kind) : Document := ofNat id.number

def Identifier.ofDocument? {kind : Kind} (d : Document) : Option (Identifier kind) :=
  d.size?.map (⟨·⟩)

def Instant.toDocument (t : Instant) : Document := .text t.text

def Instant.ofDocument? (d : Document) : Option Instant := d.text?.bind Instant.read?

def Stage.toDocument (s : Stage) : Document := .text s.name

/-- The name of the stage, or a record with nothing under that name. -/
def Stage.ofDocument? : Document → Option Stage
  | .text name => ofName? name
  | .record [(name, null)] => ofName? name
  | _ => none

/-! ## Runs -/

def StageEntry.toDocument (e : StageEntry) : Document :=
  record [("state", e.stage.toDocument), ("entered_at", e.enteredAt.toDocument)]

def StageEntry.ofDocument? (d : Document) : Option StageEntry := do
  let fields ← d.fields? ["state", "entered_at"] false
  return {
    stage := ← field? "state" Stage.ofDocument? fields
    enteredAt := ← field? "entered_at" Instant.ofDocument? fields }

def Run.toDocument (r : Run) : Document :=
  record [
    ("id", r.id.toDocument),
    ("group_id", r.group.toDocument),
    ("store_id", r.store.toDocument),
    ("state", r.stage.toDocument),
    ("history", list (r.history.map StageEntry.toDocument)),
    ("version", ofNat r.version)]

def Run.ofDocument? (d : Document) : Option Run := do
  let fields ← d.fields? ["id", "group_id", "store_id", "state", "history", "version"] false
  return {
    id := ← field? "id" Identifier.ofDocument? fields
    group := ← field? "group_id" Identifier.ofDocument? fields
    store := ← field? "store_id" Identifier.ofDocument? fields
    stage := ← field? "state" Stage.ofDocument? fields
    history := ← field? "history" (elements? StageEntry.ofDocument?) fields
    version := ← field? "version" size? fields }

/-! ## Entries of an order book -/

def Participation.toDocument (p : Participation) : Document :=
  record [
    ("id", p.id.toDocument),
    ("run_id", p.run.toDocument),
    ("user_id", p.user.toDocument),
    ("is_leader", bool p.isLeader),
    ("is_ready", bool p.isReady),
    ("is_removed", bool p.isRemoved),
    ("is_helper", bool p.isHelper),
    ("joined_at", p.joinedAt.toDocument)]

def Participation.ofDocument? (d : Document) : Option Participation := do
  let fields ← d.fields?
    ["id", "run_id", "user_id", "is_leader", "is_ready", "is_removed", "is_helper", "joined_at"]
    false
  return {
    id := ← field? "id" Identifier.ofDocument? fields
    run := ← field? "run_id" Identifier.ofDocument? fields
    user := ← field? "user_id" Identifier.ofDocument? fields
    isLeader := ← field? "is_leader" bool? fields
    isReady := ← field? "is_ready" bool? fields
    isRemoved := ← field? "is_removed" bool? fields
    isHelper := ← field? "is_helper" bool? fields
    joinedAt := ← field? "joined_at" Instant.ofDocument? fields }

def Bid.toDocument (b : Bid) : Document :=
  record [
    ("id", b.id.toDocument),
    ("participation_id", b.participation.toDocument),
    ("product_id", b.product.toDocument),
    ("quantity", b.quantity.toDocument),
    ("interested_only", bool b.interestedOnly),
    ("comment", ofOption Document.text b.comment),
    ("distributed_quantity", ofOption Quantity.toDocument b.distributedQuantity),
    ("distributed_price_per_unit", ofOption Money.toDocument b.distributedPrice),
    ("is_picked_up", bool b.isPickedUp),
    ("updated_at", b.updatedAt.toDocument)]

def Bid.ofDocument? (d : Document) : Option Bid := do
  let fields ← d.fields?
    ["id", "participation_id", "product_id", "quantity", "interested_only", "comment",
      "distributed_quantity", "distributed_price_per_unit", "is_picked_up", "updated_at"] false
  return {
    id := ← field? "id" Identifier.ofDocument? fields
    participation := ← field? "participation_id" Identifier.ofDocument? fields
    product := ← field? "product_id" Identifier.ofDocument? fields
    quantity := ← field? "quantity" Quantity.ofDocument? fields
    interestedOnly := ← field? "interested_only" bool? fields
    comment := ← optional? "comment" text? fields
    distributedQuantity := ← optional? "distributed_quantity" Quantity.ofDocument? fields
    distributedPrice := ← optional? "distributed_price_per_unit" Money.ofDocument? fields
    isPickedUp := ← field? "is_picked_up" bool? fields
    updatedAt := ← field? "updated_at" Instant.ofDocument? fields }

def ShoppingItem.toDocument (i : ShoppingItem) : Document :=
  record [
    ("id", i.id.toDocument),
    ("run_id", i.run.toDocument),
    ("product_id", i.product.toDocument),
    ("requested_quantity", i.requestedQuantity.toDocument),
    ("purchased_quantity", ofOption Quantity.toDocument i.purchasedQuantity),
    ("purchased_price_per_unit", ofOption Money.toDocument i.purchasedPrice),
    ("purchased_total", ofOption Money.toDocument i.purchasedTotal),
    ("is_purchased", bool i.isPurchased),
    ("purchase_order", ofOption ofNat i.purchaseOrder)]

/-- The place in the order of purchases has 32 bits. -/
def ShoppingItem.ofDocument? (d : Document) : Option ShoppingItem := do
  let fields ← d.fields?
    ["id", "run_id", "product_id", "requested_quantity", "purchased_quantity",
      "purchased_price_per_unit", "purchased_total", "is_purchased", "purchase_order"] false
  return {
    id := ← field? "id" Identifier.ofDocument? fields
    run := ← field? "run_id" Identifier.ofDocument? fields
    product := ← field? "product_id" Identifier.ofDocument? fields
    requestedQuantity := ← field? "requested_quantity" Quantity.ofDocument? fields
    purchasedQuantity := ← optional? "purchased_quantity" Quantity.ofDocument? fields
    purchasedPrice := ← optional? "purchased_price_per_unit" Money.ofDocument? fields
    purchasedTotal := ← optional? "purchased_total" Money.ofDocument? fields
    isPurchased := ← field? "is_purchased" bool? fields
    purchaseOrder := ← optional? "purchase_order" (count? (2 ^ 32)) fields }

/-! ## Order books -/

def OrderBook.toDocument (book : OrderBook) : Document :=
  record [
    ("run", book.run.toDocument),
    ("participations", list (book.participations.map Participation.toDocument)),
    ("bids", list (book.bids.map Bid.toDocument)),
    ("items", list (book.items.map ShoppingItem.toDocument))]

def OrderBook.ofDocument? (d : Document) : Option OrderBook := do
  let fields ← d.fields? ["run", "participations", "bids", "items"] false
  return {
    run := ← field? "run" Run.ofDocument? fields
    participations := ← field? "participations" (elements? Participation.ofDocument?) fields
    bids := ← field? "bids" (elements? Bid.ofDocument?) fields
    items := ← field? "items" (elements? ShoppingItem.ofDocument?) fields }

/-! ## Other records -/

def Watermark.toDocument (w : Watermark) : Document :=
  record [
    ("run", ofNat w.run),
    ("participation", ofNat w.participation),
    ("bid", ofNat w.bid),
    ("item", ofNat w.item)]

def Watermark.ofDocument? (d : Document) : Option Watermark := do
  let fields ← d.fields? ["run", "participation", "bid", "item"] false
  return {
    run := ← field? "run" size? fields
    participation := ← field? "participation" size? fields
    bid := ← field? "bid" size? fields
    item := ← field? "item" size? fields }

def Imbalance.toDocument (m : Imbalance) : Document :=
  record [
    ("product_id", m.product.toDocument),
    ("requested", m.requested.toDocument),
    ("purchased", m.purchased.toDocument)]

def Imbalance.ofDocument? (d : Document) : Option Imbalance := do
  let fields ← d.fields? ["product_id", "requested", "purchased"] false
  return {
    product := ← field? "product_id" Identifier.ofDocument? fields
    requested := ← field? "requested" Quantity.ofDocument? fields
    purchased := ← field? "purchased" Quantity.ofDocument? fields }

/-- Fields that are absent keep their default. -/
def Limits.ofDocument? (d : Document) : Option Limits := do
  let fields ← d.fields?
    ["max_products_per_run", "max_members_per_run", "max_bid_quantity", "max_purchase_quantity",
      "max_price_per_unit", "mailbox_size"] true
  return {
    maxProducts := ← fieldOr? "max_products_per_run" default.maxProducts size? fields
    maxMembers := ← fieldOr? "max_members_per_run" default.maxMembers size? fields
    maxBidQuantity :=
      ← fieldOr? "max_bid_quantity" default.maxBidQuantity Quantity.ofDocument? fields
    maxPurchaseQuantity :=
      ← fieldOr? "max_purchase_quantity" default.maxPurchaseQuantity Quantity.ofDocument? fields
    maxPrice := ← fieldOr? "max_price_per_unit" default.maxPrice Money.ofDocument? fields
    mailboxSize := ← fieldOr? "mailbox_size" default.mailboxSize size? fields }

end BuyingClub
