import BuyingClub.Proofs.Command.Outcome

/-!
# Execution and outcomes

A command is executed without a refusal exactly if it has an outcome, and then that is what comes
of it.
-/

namespace BuyingClub

namespace Draft

variable {limits : Limits} {d after : Draft} {user : UserId} {reply : Reply}

theorem Admits.stage_eq {value : Binary64} {participation : ParticipationId} {quantity : Quantity}
    {admitted : Draft} (h : d.Admits limits user value participation quantity admitted) :
    admitted.stage = d.stage := by
  cases h <;> rfl

theorem Admits.now_eq {value : Binary64} {participation : ParticipationId} {quantity : Quantity}
    {admitted : Draft} (h : d.Admits limits user value participation quantity admitted) :
    admitted.now = d.now := by
  cases h <;> rfl

/-! ## Each command by itself -/

theorem admitBid_eq_ok_iff {value : Binary64} {participation : ParticipationId}
    {quantity : Quantity} {admitted : Draft} :
    d.admitBid limits user value = .ok (participation, quantity, admitted) ↔
      d.Admits limits user value participation quantity admitted := by
  unfold admitBid
  cases hp : d.book.participationOf? user with
  | some p =>
    simp only [bind_eq_ok_iff, Stage.checkOpen_eq_ok_iff, pure_eq_ok_iff, exists_const,
      Prod.mk.injEq]
    constructor
    · rintro ⟨isOpen, q, reads, rfl, rfl, rfl⟩
      exact .participant isOpen reads hp
    · intro h
      cases h with
      | participant isOpen reads finds =>
        obtain rfl := Option.some.inj (hp.symm.trans finds)
        exact ⟨isOpen, _, reads, rfl, rfl, rfl⟩
      | newcomer _ _ unknown _ _ => simp [hp] at unknown
  | none =>
    simp only [bind_eq_ok_iff, Stage.checkOpen_eq_ok_iff, pure_eq_ok_iff, exists_const,
      Prod.mk.injEq, join]
    constructor
    · rintro ⟨isOpen, q, reads, ⟨id, joined⟩, hj, rfl, rfl, rfl⟩
      split at hj
      · cases hj
      · rename_i takesNewcomers
        split at hj
        · cases hj
        · rename_i hasRoom
          cases hj
          exact .newcomer isOpen reads hp takesNewcomers (Nat.lt_of_not_le hasRoom)
    · intro h
      cases h with
      | participant _ _ finds => simp [hp] at finds
      | newcomer isOpen reads _ takesNewcomers hasRoom =>
        refine ⟨isOpen, _, reads, ⟨_, _⟩, ?_, rfl, rfl, rfl⟩
        rw [if_neg takesNewcomers, if_neg (Nat.not_le_of_lt hasRoom)]
        rfl

theorem enterBid_eq_ok_iff {admitted : Draft} {request : BidRequest} :
    admitted.enterBid limits user request = .ok (after, reply) ↔
      (admitted.stage = .adjusting → admitted.book.checkChange request.participation
        request.product request.quantity request.interestedOnly = .ok ()) ∧
      ∃ placed, admitted.book.placeBid limits request admitted.now admitted.counters =
          .ok placed ∧
        after = (admitted.bidPlaced user request.product placed).movedIf
          (admitted.stage = .planning &&
            !((admitted.bidPlaced user request.product placed).book.participation?
              request.participation).any (·.isLeader)) .active ∧
        reply = .bidPlaced placed.bid placed.previous.isNone after.stage := by
  simp only [enterBid, bind_eq_ok_iff, checkIf_eq_ok_iff, moveIf_eq_ok_iff, pure_eq_ok_iff,
    Prod.mk.injEq]
  refine and_congr_right fun _ => exists_congr fun placed => and_congr_right fun places => ?_
  constructor
  · rintro ⟨_, rfl, rfl⟩
    exact ⟨rfl, rfl⟩
  · rintro ⟨rfl, rfl⟩
    refine ⟨fun h => ?_, rfl, rfl⟩
    simp only [Bool.and_eq_true, decide_eq_true_eq] at h
    show placed.book.run.stage.canMove .active = true
    rw [(OrderBook.placeBid_frame places).1, ← stage, h.1]
    rfl

theorem retractBid_eq_ok_iff {product : ProductId} :
    d.retractBid user product = .ok (after, reply) ↔
      d.Outcome limits user (.retractBid product) after reply := by
  simp only [Draft.retractBid, bind_eq_ok_iff, Stage.checkOpen_eq_ok_iff, exists_const,
    participationOf_eq_ok_iff, checkIf_eq_ok_iff, moveIf_eq_ok_iff, pure_eq_ok_iff, Prod.mk.injEq]
  constructor
  · rintro ⟨isOpen, p, finds, fits, ⟨bid, book⟩, retracts, _, rfl, rfl⟩
    exact .bidRetracted isOpen finds fits retracts rfl
  · intro h
    cases h with
    | bidRetracted isOpen finds fits retracts moves =>
      refine ⟨isOpen, _, finds, fits, _, retracts, fun h => ?_, moves.symm, by rw [moves]; rfl⟩
      obtain ⟨_, rfl⟩ := OrderBook.retractBid_eq_ok_iff.mp retracts
      simp only [Bool.and_eq_true, decide_eq_true_eq] at h
      show d.stage.canMove .planning = true
      rw [h.1]
      rfl

theorem toggleReady_eq_ok_iff :
    d.toggleReady user = .ok (after, reply) ↔ d.Outcome limits user .toggleReady after reply := by
  simp only [toggleReady, bind_eq_ok_iff, checkStage_eq_ok_iff, participationOf_eq_ok_iff,
    moveIf_eq_ok_iff, pure_eq_ok_iff, exists_const, Prod.mk.injEq]
  constructor
  · rintro ⟨isActive, p, finds, _, rfl, rfl⟩
    exact .readyToggled isActive finds rfl
  · intro h
    cases h with
    | readyToggled isActive finds moves =>
      refine ⟨isActive, _, finds, fun _ => ?_, moves.symm, by rw [moves]; rfl⟩
      show d.stage.canMove .confirmed = true
      rw [isActive]
      rfl

theorem setHelper_eq_ok_iff {helper : UserId} {isHelper : Bool} :
    d.setHelper user helper isHelper = .ok (after, reply) ↔
      d.Outcome limits user (.setHelper helper isHelper) after reply := by
  simp only [setHelper, bind_eq_ok_iff, checkLeader_eq_ok_iff, checkLive_eq_ok_iff,
    participationOf_eq_ok_iff, pure_eq_ok_iff, exists_const, Prod.mk.injEq]
  constructor
  · rintro ⟨leads, isLive, p, finds, rfl, rfl⟩
    exact .helperSet leads isLive finds
  · intro h
    cases h with
    | helperSet leads isLive finds => exact ⟨leads, isLive, _, finds, rfl, rfl⟩

theorem forceConfirm_eq_ok_iff :
    d.forceConfirm user = .ok (after, reply) ↔
      d.Outcome limits user .forceConfirm after reply := by
  simp only [forceConfirm, bind_eq_ok_iff, checkLeader_eq_ok_iff, move_eq_ok_iff, pure_eq_ok_iff,
    exists_const, Prod.mk.injEq]
  constructor
  · rintro ⟨leads, _, ⟨allowed, rfl⟩, rfl, rfl⟩
    exact .confirmed leads allowed
  · intro h
    cases h with
    | confirmed leads allowed => exact ⟨leads, _, ⟨allowed, rfl⟩, rfl, rfl⟩

theorem startShopping_eq_ok_iff :
    d.startShopping user = .ok (after, reply) ↔
      d.Outcome limits user .startShopping after reply := by
  simp only [startShopping, bind_eq_ok_iff, checkLeader_eq_ok_iff, checkMove,
    Stage.checkMove_eq_ok_iff, move_eq_ok_iff, pure_eq_ok_iff, exists_const, Prod.mk.injEq]
  constructor
  · rintro ⟨leads, allowed, ⟨book, counters⟩, drawsUp, _, ⟨_, rfl⟩, rfl, rfl⟩
    exact .shoppingStarted leads allowed drawsUp
  · intro h
    cases h with
    | shoppingStarted leads allowed drawsUp =>
      obtain ⟨_, rfl, rfl⟩ := OrderBook.drawUpList_eq_ok_iff.mp drawsUp
      exact ⟨leads, allowed, _, drawsUp, _, ⟨allowed, rfl⟩, rfl, rfl⟩

theorem recordPurchase_eq_ok_iff {product : ProductId} {quantity price : Binary64}
    {total : Option Binary64} :
    d.recordPurchase limits user product quantity price total = .ok (after, reply) ↔
      d.Outcome limits user (.recordPurchase product quantity price total) after reply := by
  simp only [recordPurchase, bind_eq_ok_iff, checkStage_eq_ok_iff, checkShopper_eq_ok_iff,
    itemFor_eq_ok_iff, pure_eq_ok_iff, exists_const, Prod.mk.injEq]
  constructor
  · rintro ⟨isShopping, mayShop, ⟨q, each, paid⟩, reads, item, finds, rfl, rfl⟩
    obtain rfl := OrderBook.product_of_itemFor? finds
    exact .purchaseRecorded isShopping mayShop reads finds
  · intro h
    cases h with
    | purchaseRecorded isShopping mayShop reads finds =>
      obtain rfl := OrderBook.product_of_itemFor? finds
      exact ⟨isShopping, mayShop, _, reads, _, finds, rfl, rfl⟩

theorem undoPurchase_eq_ok_iff {product : ProductId} :
    d.undoPurchase user product = .ok (after, reply) ↔
      d.Outcome limits user (.undoPurchase product) after reply := by
  simp only [undoPurchase, bind_eq_ok_iff, checkStage_eq_ok_iff, checkShopper_eq_ok_iff,
    itemFor_eq_ok_iff, checkIf_eq_ok_iff, throw_eq_ok_iff, pure_eq_ok_iff, exists_const,
    Prod.mk.injEq]
  constructor
  · rintro ⟨isShopping, mayShop, item, finds, wasBought, rfl, rfl⟩
    exact .purchaseUndone isShopping mayShop finds (by simpa using wasBought)
  · intro h
    cases h with
    | purchaseUndone isShopping mayShop finds wasBought =>
      exact ⟨isShopping, mayShop, _, finds, by simp [wasBought], rfl, rfl⟩

theorem distribute_eq_ok_iff {allocations : List Allocation} :
    d.distribute = .ok (allocations, after) ↔
      d.stage.canMove .distributing = true ∧ ∃ book counters,
        d.book.handOut d.now d.counters = .ok (allocations, book, counters) ∧
          d.movedWith book counters .distributing = after := by
  simp only [distribute, bind_eq_ok_iff, move_eq_ok_iff, pure_eq_ok_iff, Prod.mk.injEq]
  constructor
  · rintro ⟨⟨allocations, book, counters⟩, handsOut, _, ⟨allowed, rfl⟩, rfl, rfl⟩
    refine ⟨?_, book, counters, handsOut, rfl⟩
    rwa [stage, ← OrderBook.handOut_run handsOut]
  · rintro ⟨allowed, book, counters, handsOut, rfl⟩
    refine ⟨_, handsOut, _, ⟨?_, rfl⟩, rfl, rfl⟩
    rwa [stage, ← OrderBook.handOut_run handsOut] at allowed

theorem completeShopping_eq_ok_iff :
    d.completeShopping user = .ok (after, reply) ↔
      d.Outcome limits user .completeShopping after reply := by
  simp only [completeShopping, bind_eq_ok_iff, checkLeader_eq_ok_iff, checkMove,
    Stage.checkMove_eq_ok_iff, exists_const]
  cases hi : d.book.listImbalances with
  | nil =>
    simp only [List.isEmpty_nil, if_true, bind_eq_ok_iff, pure_eq_ok_iff, Prod.mk.injEq]
    constructor
    · rintro ⟨leads, allowed, ⟨allocations, _⟩, distributes, rfl, rfl⟩
      obtain ⟨_, book, counters, handsOut, rfl⟩ := distribute_eq_ok_iff.mp distributes
      exact .shoppingBalanced leads allowed hi handsOut
    · intro h
      cases h with
      | shoppingBalanced leads allowed _ handsOut =>
        have distributes := distribute_eq_ok_iff.mpr ⟨allowed, _, _, handsOut, rfl⟩
        exact ⟨leads, allowed, _, distributes, rfl, rfl⟩
      | shoppingUnbalanced _ _ unbalanced => exact absurd hi unbalanced
  | cons imbalance rest =>
    simp only [List.isEmpty_cons, Bool.false_eq_true, if_false, bind_eq_ok_iff, move_eq_ok_iff,
      pure_eq_ok_iff, Prod.mk.injEq]
    have unbalanced : d.book.listImbalances ≠ [] := by simp [hi]
    constructor
    · rintro ⟨leads, _, _, ⟨allowed, rfl⟩, rfl, rfl⟩
      rw [← hi]
      exact .shoppingUnbalanced leads (Stage.eq_shopping_of_canMove allowed) unbalanced
    · intro h
      cases h with
      | shoppingBalanced _ _ balanced _ => exact absurd balanced unbalanced
      | shoppingUnbalanced leads isShopping _ =>
        rw [isShopping]
        exact ⟨leads, rfl, _, ⟨rfl, rfl⟩, rfl, by rw [hi]; rfl⟩

theorem finishAdjusting_eq_ok_iff {force : Bool} :
    d.finishAdjusting user force = .ok (after, reply) ↔
      d.Outcome limits user (.finishAdjusting force) after reply := by
  simp only [finishAdjusting, bind_eq_ok_iff, checkLeader_eq_ok_iff, checkMove,
    Stage.checkMove_eq_ok_iff, checkStage_eq_ok_iff, checkIf_eq_ok_iff,
    OrderBook.checkBalanced_eq_ok_iff, pure_eq_ok_iff, exists_const, Prod.mk.injEq]
  constructor
  · rintro ⟨leads, _, isAdjusting, balanced, ⟨allocations, _⟩, distributes, rfl, rfl⟩
    obtain ⟨_, book, counters, handsOut, rfl⟩ := distribute_eq_ok_iff.mp distributes
    exact .adjustingFinished leads isAdjusting (by simpa using balanced) handsOut
  · intro h
    cases h with
    | adjustingFinished leads isAdjusting balanced handsOut =>
      have allowed : d.stage.canMove .distributing = true := by rw [isAdjusting]; rfl
      exact ⟨leads, allowed, isAdjusting, by simpa using balanced, _,
        distribute_eq_ok_iff.mpr ⟨allowed, _, _, handsOut, rfl⟩, rfl, rfl⟩

theorem markPickedUp_eq_ok_iff {bid : BidId} :
    d.markPickedUp user bid = .ok (after, reply) ↔
      d.Outcome limits user (.markPickedUp bid) after reply := by
  simp only [markPickedUp, bind_eq_ok_iff, checkStage_eq_ok_iff, checkShopper_eq_ok_iff,
    exists_const]
  cases hb : d.book.bid? bid with
  | none =>
    simp only [throw_eq_ok_iff, and_false, false_iff]
    intro h
    cases h with
    | pickedUp _ _ finds _ => simp [hb] at finds
  | some b =>
    obtain rfl := OrderBook.id_of_bid? hb
    simp only [checkIf_eq_ok_iff, throw_eq_ok_iff, pure_eq_ok_iff, Prod.mk.injEq,
      Option.isNone_iff_eq_none, imp_false, ← Option.isSome_iff_ne_none]
    constructor
    · rintro ⟨isDistributing, mayShop, hasGoods, rfl, rfl⟩
      exact .pickedUp isDistributing mayShop hb hasGoods
    · intro h
      cases h with
      | pickedUp isDistributing mayShop finds hasGoods =>
        obtain rfl := Option.some.inj (hb.symm.trans finds)
        exact ⟨isDistributing, mayShop, hasGoods, rfl, rfl⟩

theorem completeDistribution_eq_ok_iff :
    d.completeDistribution user = .ok (after, reply) ↔
      d.Outcome limits user .completeDistribution after reply := by
  simp only [completeDistribution, bind_eq_ok_iff, checkLeader_eq_ok_iff, checkLive_eq_ok_iff,
    checkMove, Stage.checkMove_eq_ok_iff, checkIf_eq_ok_iff, throw_eq_ok_iff, move_eq_ok_iff,
    pure_eq_ok_iff, exists_const, Prod.mk.injEq]
  constructor
  · rintro ⟨leads, _, allowed, isDone, _, ⟨_, rfl⟩, rfl, rfl⟩
    exact .completed leads (Stage.eq_distributing_of_canMove allowed)
      (Nat.eq_zero_of_not_pos isDone)
  · intro h
    cases h with
    | completed leads isDistributing isDone =>
      rw [isDistributing]
      exact ⟨leads, rfl, rfl, by simp [isDone], _, ⟨rfl, rfl⟩, rfl, rfl⟩

theorem cancel_eq_ok_iff :
    d.cancel user = .ok (after, reply) ↔ d.Outcome limits user .cancel after reply := by
  simp only [cancel, bind_eq_ok_iff, checkLeader_eq_ok_iff, checkLive_eq_ok_iff, move_eq_ok_iff,
    pure_eq_ok_iff, exists_const, Prod.mk.injEq]
  constructor
  · rintro ⟨leads, _, _, ⟨allowed, rfl⟩, rfl, rfl⟩
    exact .cancelled leads allowed
  · intro h
    cases h with
    | cancelled leads allowed =>
      exact ⟨leads, Stage.isTerminal_of_canMove allowed, _, ⟨allowed, rfl⟩, rfl, rfl⟩

/-! ## All commands -/

theorem settle_eq_ok_iff {result : Except Refusal (Draft × Reply)} {counters : Counters} :
    d.settle result = (.ok (after, reply), counters) ↔
      result = .ok (after, reply) ∧ after.counters = counters := by
  unfold settle
  split
  · simp only [Prod.mk.injEq, Except.ok.injEq]
    constructor
    · rintro ⟨⟨rfl, rfl⟩, rfl⟩
      exact ⟨⟨rfl, rfl⟩, rfl⟩
    · rintro ⟨⟨rfl, rfl⟩, rfl⟩
      exact ⟨⟨rfl, rfl⟩, rfl⟩
  · simp

theorem execute_eq_ok_iff {action : Action} {counters : Counters} :
    d.execute limits ⟨user, action⟩ = (.ok (after, reply), counters) ↔
      d.Outcome limits user action after reply ∧ after.counters = counters := by
  have settles {result : Except Refusal (Draft × Reply)} {p : Prop}
      (h : result = .ok (after, reply) ↔ p) :
      d.settle result = (.ok (after, reply), counters) ↔ p ∧ after.counters = counters :=
    settle_eq_ok_iff.trans (and_congr_left fun _ => h)
  cases action with
  | placeBid product value interestedOnly comment =>
    simp only [execute]
    cases ha : d.admitBid limits user value with
    | error why =>
      simp only [Prod.mk.injEq, reduceCtorEq, false_and, false_iff]
      rintro ⟨h, _⟩
      cases h with
      | bidPlaced admits _ _ _ => simp [admitBid_eq_ok_iff.mpr admits] at ha
    | ok result =>
      obtain ⟨participation, quantity, admitted⟩ := result
      have admits := admitBid_eq_ok_iff.mp ha
      simp only [settle_eq_ok_iff, enterBid_eq_ok_iff, admits.stage_eq, admits.now_eq]
      refine and_congr_left fun _ => ?_
      constructor
      · rintro ⟨fits, placed, places, moves, rfl⟩
        exact .bidPlaced admits fits places moves
      · intro h
        cases h with
        | bidPlaced admits' fits places moves =>
          rw [admitBid_eq_ok_iff.mpr admits'] at ha
          obtain ⟨rfl, rfl, rfl⟩ : _ = _ ∧ _ = _ ∧ _ = _ := by simpa using ha
          exact ⟨fits, _, places, moves, rfl⟩
  | retractBid product => exact settles retractBid_eq_ok_iff
  | toggleReady => exact settles toggleReady_eq_ok_iff
  | setHelper helper isHelper => exact settles setHelper_eq_ok_iff
  | forceConfirm => exact settles forceConfirm_eq_ok_iff
  | startShopping => exact settles startShopping_eq_ok_iff
  | recordPurchase product quantity price total => exact settles recordPurchase_eq_ok_iff
  | undoPurchase product => exact settles undoPurchase_eq_ok_iff
  | completeShopping => exact settles completeShopping_eq_ok_iff
  | finishAdjusting force => exact settles finishAdjusting_eq_ok_iff
  | markPickedUp bid => exact settles markPickedUp_eq_ok_iff
  | completeDistribution => exact settles completeDistribution_eq_ok_iff
  | cancel => exact settles cancel_eq_ok_iff

end Draft

end BuyingClub
