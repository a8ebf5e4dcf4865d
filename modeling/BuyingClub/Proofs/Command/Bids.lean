import BuyingClub.Proofs.Command.Frame

/-!
# What commands make of the bids

Bids are placed, retracted, handed goods out or marked, each in its own stages.
-/

namespace BuyingClub

/-- What a reply tells of a handout. -/
def Reply.allocations : Reply → List Allocation
  | .shoppingCompleted _ _ allocations | .adjustingFinished allocations => allocations
  | _ => []

theorem Stage.shopping_or_adjusting_of_canMove {stage : Stage}
    (h : stage.canMove .distributing = true) : stage = .shopping ∨ stage = .adjusting := by
  cases stage <;> simp [canMove, next] at h ⊢

theorem Limits.isSound_of_readBid {limits : Limits} {value : Binary64} {quantity : Quantity}
    (h : limits.readBid value = .ok quantity) :
    0 ≤ quantity ∧ quantity.hundredths ≤ Hundredths.bound := by
  simp only [readBid, bind_eq_ok_iff, mapError_eq_ok_iff, checkBid_eq_ok_iff, pure_eq_ok_iff] at h
  obtain ⟨q, hreads, _, ⟨hnonneg, _⟩, rfl⟩ := h
  exact ⟨hnonneg, Quantity.ofBinary64_le hreads⟩

namespace Draft

variable {limits : Limits} {d after : Draft} {user : UserId} {action : Action} {reply : Reply}

/-- The bids after a command, and how it split what was bought. -/
inductive ChangesBids (limits : Limits) (d after : Draft) : List Bid → List Allocation → Prop
  | stays : ChangesBids limits d after d.book.bids []
  | places {book : OrderBook} {request : BidRequest} {counters : Counters} {placed : PlacedBid}
      (isOpen : d.stage.isOpen = true) (staysOpen : after.stage.isOpen = true)
      (sameBids : book.bids = d.book.bids)
      (reads : 0 ≤ request.quantity ∧ request.quantity.hundredths ≤ Hundredths.bound)
      (fits : d.stage = .adjusting → book.checkChange request.participation request.product
        request.quantity request.interestedOnly = .ok ())
      (places : book.placeBid limits request d.now counters = .ok placed) :
      ChangesBids limits d after placed.book.bids []
  | retracts {participation : ParticipationId} {product : ProductId}
      (isOpen : d.stage.isOpen = true) (staysOpen : after.stage.isOpen = true)
      (fits : d.stage = .adjusting → d.book.checkRetraction participation product = .ok ()) :
      ChangesBids limits d after (d.book.bids.eraseP (·.isOf participation product)) []
  | handsOut {allocations : List Allocation} {book : OrderBook} {counters : Counters}
      (bought : d.stage = .shopping ∨ d.stage = .adjusting)
      (distributes : after.stage = .distributing)
      (handsOut : d.book.handOut d.now d.counters = .ok (allocations, book, counters)) :
      ChangesBids limits d after book.bids allocations
  | marks {b : Bid} (isDistributing : d.stage = .distributing)
      (finds : d.book.bid? b.id = some b) :
      ChangesBids limits d after
        (updateFirst (·.id = b.id) (fun _ => { b with isPickedUp := true }) d.book.bids) []

theorem isOpen_movedIf {c : Bool} {new : Stage} (hnew : new.isOpen = true)
    (h : d.stage.isOpen = true) : (d.movedIf c new).stage.isOpen = true := by
  rw [movedIf_stage]
  split
  · exact hnew
  · exact h

theorem Outcome.changesBids (h : d.Outcome limits user action after reply) :
    d.ChangesBids limits after after.book.bids reply.allocations := by
  cases h with
  | bidPlaced admits fits places moves =>
    have hstays : after.stage.isOpen = true := by
      rw [moves]
      apply isOpen_movedIf rfl
      rw [stage_bidPlaced admits places]
      exact admits.isOpen
    have hbids : after.book.bids = _ := moves ▸ movedIf_bids ..
    rw [hbids]
    exact .places admits.isOpen hstays admits.frame.2.1
      (Limits.isSound_of_readBid admits.reads) fits places
  | bidRetracted isOpen finds fits retracts moves =>
    obtain ⟨_, rfl⟩ := OrderBook.retractBid_eq_ok_iff.mp retracts
    have hstays : after.stage.isOpen = true := by
      rw [moves]
      exact isOpen_movedIf rfl isOpen
    have hbids : after.book.bids = _ := moves ▸ movedIf_bids ..
    rw [hbids]
    exact .retracts isOpen hstays fits
  | readyToggled isActive finds moves =>
    have hbids : after.book.bids = _ := moves ▸ movedIf_bids ..
    rw [hbids]
    exact .stays
  | shoppingStarted leads allowed drawsUp =>
    obtain ⟨_, rfl, _⟩ := OrderBook.drawUpList_eq_ok_iff.mp drawsUp
    exact .stays
  | @shoppingBalanced allocations book counters leads allowed balanced handsOut =>
    show d.ChangesBids limits _ book.bids allocations
    exact .handsOut (Stage.shopping_or_adjusting_of_canMove allowed) rfl handsOut
  | @adjustingFinished _ allocations book counters leads isAdjusting balanced handsOut =>
    show d.ChangesBids limits _ book.bids allocations
    exact .handsOut (.inr isAdjusting) rfl handsOut
  | pickedUp isDistributing mayShop finds hasGoods =>
    rw [← OrderBook.id_of_bid? finds] at finds
    exact .marks isDistributing finds
  | _ => exact .stays

end Draft

end BuyingClub
