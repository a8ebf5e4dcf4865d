import BuyingClub.Proofs.Checked.Totals

/-!
# Checked differences

What is missing or left over of a product, and what adjusting allows for it.
-/

namespace BuyingClub

/-- The bids fit, and so does what was bought of every product. -/
structure OrderBook.AmountsFit (book : OrderBook) : Prop where
  bids : BidsFit book.bids
  purchases : ∀ item ∈ book.items, ∀ purchased, item.bought? = some purchased → purchased.IsFit

/-! ## Imbalances -/

namespace Imbalance

def delta? (m : Imbalance) : Option Quantity := m.purchased.sub? m.requested

def text? (m : Imbalance) : Option String := do
  let delta ← m.delta?
  let difference ← delta.abs?
  let direction := if delta < 0 then " short by " else " over by "
  return m.product.text ++ direction ++ difference.text ++ " (requested " ++ m.requested.text ++
    ", purchased " ++ m.purchased.text ++ ")"

theorem text?_eq {m : Imbalance} (hpurchased : m.purchased.IsFit) (hrequested : m.requested.IsFit) :
    m.text? = some m.text := by
  have hdelta : m.delta? = some m.delta := Quantity.sub?_of_isFit hpurchased hrequested
  have habs : m.delta.abs? = some m.delta.abs :=
    Quantity.abs?_of_isFit (Quantity.isFit_abs_sub hpurchased hrequested)
  unfold text?
  rw [hdelta, Option.bind_eq_bind, Option.bind_some, habs, Option.bind_some]
  unfold text isShortage
  simp only [decide_eq_true_eq]
  rfl

end Imbalance

namespace OrderBook

variable {book : OrderBook} {participation : ParticipationId} {product : ProductId}

def imbalances? (book : OrderBook) : Option (List Imbalance) := do
  let found ← book.items.mapM fun item => do
    let requested ← book.demand? item.product
    return imbalanceOf? item requested
  return found.filterMap id

theorem AmountsFit.imbalances?_eq (h : book.AmountsFit) :
    book.imbalances? = some book.imbalances := by
  unfold imbalances? imbalances
  rw [mapM_eq_some fun item _ => by rw [h.bids.demand?_eq]; rfl]
  simp [List.filterMap_map]

theorem AmountsFit.text?_eq (h : book.AmountsFit) {m : Imbalance} {item : ShoppingItem}
    {requested : Quantity} (hitem : item ∈ book.items) (hrequested : requested.IsFit)
    (hm : imbalanceOf? item requested = some m) : m.text? = some m.text := by
  unfold imbalanceOf? at hm
  split at hm
  · cases hm
  · rename_i purchased hbought
    split at hm <;> cases hm
    exact Imbalance.text?_eq (h.purchases item hitem purchased hbought) hrequested

/-! ## Changes while adjusting -/

/-- How much more was bought than is asked for. -/
def excess? (book : OrderBook) (product : ProductId) (purchased : Quantity) : Option Quantity := do
  let requested ← book.demand? product
  purchased.sub? requested

def checkStep? (product : ProductId) (delta current quantity : Quantity) :
    Option (Except Refusal Unit) :=
  if delta < 0 then do
    let shortage ← delta.abs?
    let lowest ← current.sub? shortage
    let floor := max lowest 0
    return if current < quantity then .error (.invalid (.onlyReduction product shortage))
      else if quantity < floor then .error (.invalid (.belowFloor product shortage floor))
      else .ok ()
  else if 0 < delta then do
    let ceiling ← current.add? delta
    return if quantity < current then .error (.invalid (.onlyIncrease product delta))
      else if ceiling < quantity then .error (.invalid (.aboveCeiling product delta ceiling))
      else .ok ()
  else some (.error (.invalid (.alreadyBalanced product)))

def checkChange? (book : OrderBook) (participation : ParticipationId) (product : ProductId)
    (quantity : Quantity) (interestedOnly : Bool) : Option (Except Refusal Unit) :=
  match book.purchasedQuantity product with
  | .error why => some (.error why)
  | .ok purchased =>
    match book.bidOf? participation product with
    | none => some (.error (.invalid (.closedToNewBids product)))
    | some current =>
      if current.interestedOnly ≠ interestedOnly then some (.error (.invalid .fixedInterest))
      else if current.interestedOnly ∨ quantity = current.quantity then some (.ok ())
      else do
        let delta ← book.excess? product purchased
        checkStep? product delta current.quantity quantity

def holding? (book : OrderBook) (product : ProductId) : Option Holding :=
  match (book.itemFor? product).bind (·.bought?) with
  | none => some .notBought
  | some purchased => do
    let delta ← book.excess? product purchased
    return if delta < 0 then .shortage else if 0 < delta then .surplus else .balanced

def checkRetraction? (book : OrderBook) (participation : ParticipationId) (product : ProductId) :
    Option (Except Refusal Unit) :=
  match book.bidOf? participation product with
  | none => some (.error (.missing (.bidOf participation product)))
  | some bid =>
    if bid.interestedOnly then some (.ok ())
    else do
      let why ← book.holding? product
      return .error (.invalid (.heldBid product why))

theorem AmountsFit.excess?_eq (h : book.AmountsFit) {purchased : Quantity}
    (hpurchased : purchased.IsFit) :
    book.excess? product purchased = some (purchased - book.demand product) := by
  unfold excess?
  rw [h.bids.demand?_eq]
  exact Quantity.sub?_of_isFit hpurchased (h.bids.isFit_demand product)

theorem checkStep?_eq {purchased requested current : Quantity} (quantity : Quantity)
    (hpurchased : purchased.IsFit) (hrequested : requested.IsFit) (hcurrent : current.IsFit)
    (part : current ≤ requested) :
    checkStep? product (purchased - requested) current quantity =
      some (checkStep product (purchased - requested) current quantity) := by
  have hshortage := Quantity.isFit_abs_sub hpurchased hrequested
  have hceiling (positive : 0 < purchased - requested) :
      (current + (purchased - requested)).IsFit := by
    simp only [Quantity.le_def, Quantity.lt_def, Quantity.hundredths_zero, Quantity.hundredths_sub]
      at part positive
    unfold Quantity.IsFit at hpurchased hcurrent ⊢
    simp only [Quantity.hundredths_add, Quantity.hundredths_sub]
    omega
  unfold checkStep? checkStep
  split
  · rw [Quantity.abs?_of_isFit hshortage, Option.bind_eq_bind, Option.bind_some,
      Quantity.sub?_of_isFit hcurrent hshortage]
    rfl
  · split
    · rename_i positive
      rw [Quantity.add?_of_isFit (hceiling positive)]
      rfl
    · rfl

theorem AmountsFit.checkChange?_eq (h : book.AmountsFit) (participation : ParticipationId)
    (product : ProductId) (quantity : Quantity) (interestedOnly : Bool) :
    book.checkChange? participation product quantity interestedOnly =
      some (book.checkChange participation product quantity interestedOnly) := by
  unfold checkChange? checkChange
  cases hbought : book.purchasedQuantity product with
  | error why => rfl
  | ok purchased =>
    obtain ⟨item, hitem, hpurchased⟩ := purchasedQuantity_eq_ok_iff.mp hbought
    have hfit := h.purchases item (mem_of_itemFor? hitem) purchased hpurchased
    cases hcurrent : book.bidOf? participation product with
    | none => rfl
    | some current =>
      have hmem : current ∈ book.bids := List.mem_of_find?_eq_some hcurrent
      have hproduct := (isOf_of_bidOf? hcurrent).2
      simp only [bind, Except.bind]
      split
      · rfl
      · split
        · rfl
        · rename_i hchanges
          have hcounts : current.countsFor product = true := by
            have hcommitted := (not_or.mp hchanges).1
            simp [Bid.countsFor, Bid.isCommitted, hproduct, hcommitted]
          have hpart : current.quantity ≤ book.demand product := by
            rw [Quantity.le_def, hundredths_demand]
            exact le_committedTotal h.bids.nonneg hmem hcounts
          rw [h.excess?_eq hfit]
          exact checkStep?_eq quantity hfit (h.bids.isFit_demand product)
            (h.bids.isFit_quantity hmem hcounts) hpart

theorem AmountsFit.holding?_eq (h : book.AmountsFit) (product : ProductId) :
    book.holding? product = some (book.holding product) := by
  unfold holding? holding
  cases hbought : (book.itemFor? product).bind (·.bought?) with
  | none => rfl
  | some purchased =>
    obtain ⟨item, hitem, hpurchased⟩ := Option.bind_eq_some_iff.mp hbought
    dsimp only
    rw [h.excess?_eq (h.purchases item (mem_of_itemFor? hitem) purchased hpurchased)]
    rfl

theorem AmountsFit.checkRetraction?_eq (h : book.AmountsFit) (participation : ParticipationId)
    (product : ProductId) :
    book.checkRetraction? participation product =
      some (book.checkRetraction participation product) := by
  unfold checkRetraction? checkRetraction
  cases book.bidOf? participation product with
  | none => rfl
  | some bid =>
    dsimp only
    split
    · rfl
    · rw [h.holding?_eq]
      rfl

end OrderBook

end BuyingClub
