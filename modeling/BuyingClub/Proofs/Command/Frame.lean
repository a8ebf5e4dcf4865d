import BuyingClub.Proofs.Command.Outcome
import BuyingClub.Proofs.OrderBook.Rows

/-!
# What commands keep

Whatever a command does, it makes a book one version newer, of the same run with the same leader.
It either leaves the stage or makes one move of the table. A draft that is not touched differs from
the book it was made of in the stage alone.
-/

namespace BuyingClub

namespace Draft

variable {limits : Limits} {d after : Draft} {user : UserId} {action : Action} {reply : Reply}

/-! ## Single changes -/

@[simp] theorem moved_book (new : Stage) :
    (d.moved new).book =
      { d.book with run := { d.book.run.enter new d.now with version := d.loadedVersion + 1 } } :=
  rfl

@[simp] theorem movedIf_bids (c : Bool) (new : Stage) :
    (d.movedIf c new).book.bids = d.book.bids := by
  cases c <;> rfl

@[simp] theorem movedIf_items (c : Bool) (new : Stage) :
    (d.movedIf c new).book.items = d.book.items := by
  cases c <;> rfl

@[simp] theorem movedIf_participations (c : Bool) (new : Stage) :
    (d.movedIf c new).book.participations = d.book.participations := by
  cases c <;> rfl

@[simp] theorem movedIf_isTouched (c : Bool) (new : Stage) :
    (d.movedIf c new).isTouched = d.isTouched := by
  cases c <;> rfl

@[simp] theorem movedIf_counters (c : Bool) (new : Stage) :
    (d.movedIf c new).counters = d.counters := by
  cases c <;> rfl

@[simp] theorem movedIf_loadedVersion (c : Bool) (new : Stage) :
    (d.movedIf c new).loadedVersion = d.loadedVersion := by
  cases c <;> rfl

@[simp] theorem movedIf_loadedStage (c : Bool) (new : Stage) :
    (d.movedIf c new).loadedStage = d.loadedStage := by
  cases c <;> rfl

theorem movedIf_stage (c : Bool) (new : Stage) :
    (d.movedIf c new).stage = if c then new else d.stage := by
  cases c <;> rfl

/-! ## The run -/

/-- The run as it is after a command: one version on, in the same stage or after one move. -/
inductive Follows (d : Draft) : Run → Prop
  | stays : Follows d { d.book.run with version := d.loadedVersion + 1 }
  | moves {new : Stage} (allowed : d.stage.canMove new = true) :
      Follows d { d.book.run.enter new d.now with version := d.loadedVersion + 1 }

theorem Follows.id {run : Run} (h : d.Follows run) : run.id = d.book.run.id := by
  cases h <;> rfl

theorem Follows.group {run : Run} (h : d.Follows run) : run.group = d.book.run.group := by
  cases h <;> rfl

theorem Follows.version {run : Run} (h : d.Follows run) : run.version = d.loadedVersion + 1 := by
  cases h <;> rfl

theorem Follows.of_movedIf {c : Bool} {new : Stage} {changed : Draft}
    (hrun : changed.book.run = { d.book.run with version := d.loadedVersion + 1 })
    (hversion : changed.loadedVersion = d.loadedVersion) (hnow : changed.now = d.now)
    (allowed : c = true → d.stage.canMove new = true) :
    d.Follows (changed.movedIf c new).book.run := by
  cases c with
  | false =>
    show d.Follows changed.book.run
    rw [hrun]
    exact .stays
  | true =>
    show d.Follows { changed.book.run.enter new changed.now with
      version := changed.loadedVersion + 1 }
    rw [hrun, hversion, hnow]
    exact .moves (allowed rfl)

theorem follows_movedWith {book : OrderBook} {counters : Counters} {new : Stage}
    (hrun : book.run = d.book.run) (allowed : d.stage.canMove new = true) :
    d.Follows (d.movedWith book counters new).book.run := by
  have hmoved : (d.movedWith book counters new).book.run =
      { book.run.enter new d.now with version := d.loadedVersion + 1 } := rfl
  rw [hmoved, hrun]
  exact .moves allowed

theorem Admits.frame {value : Binary64} {participation : ParticipationId} {quantity : Quantity}
    {admitted : Draft} (h : d.Admits limits user value participation quantity admitted) :
    admitted.book.run = d.book.run ∧ admitted.book.bids = d.book.bids ∧
      admitted.book.items = d.book.items ∧ admitted.loadedVersion = d.loadedVersion ∧
      admitted.now = d.now := by
  cases h <;> exact ⟨rfl, rfl, rfl, rfl, rfl⟩

theorem Admits.reads {value : Binary64} {participation : ParticipationId} {quantity : Quantity}
    {admitted : Draft} (h : d.Admits limits user value participation quantity admitted) :
    limits.readBid value = .ok quantity := by
  cases h <;> assumption

theorem Admits.isOpen {value : Binary64} {participation : ParticipationId} {quantity : Quantity}
    {admitted : Draft} (h : d.Admits limits user value participation quantity admitted) :
    d.stage.isOpen = true := by
  cases h <;> assumption

theorem Admits.frame_placed {value : Binary64} {participation : ParticipationId}
    {quantity : Quantity} {admitted : Draft} {request : BidRequest} {placed : PlacedBid}
    (h : d.Admits limits user value participation quantity admitted)
    (places : admitted.book.placeBid limits request d.now admitted.counters = .ok placed) :
    placed.book.run = d.book.run ∧ placed.book.items = d.book.items := by
  obtain ⟨hrun, _, hitems⟩ := OrderBook.placeBid_frame places
  exact ⟨hrun.trans h.frame.1, hitems.trans h.frame.2.2.1⟩

theorem stage_bidPlaced {value : Binary64} {participation : ParticipationId} {quantity : Quantity}
    {admitted : Draft} {request : BidRequest} {placed : PlacedBid} {product : ProductId}
    (h : d.Admits limits user value participation quantity admitted)
    (places : admitted.book.placeBid limits request d.now admitted.counters = .ok placed) :
    (admitted.bidPlaced user product placed).stage = d.stage := by
  show placed.book.run.stage = d.book.run.stage
  rw [(h.frame_placed places).1]

theorem Outcome.loaded (h : d.Outcome limits user action after reply) :
    after.loadedVersion = d.loadedVersion ∧ after.loadedStage = d.loadedStage := by
  cases h with
  | bidPlaced admits fits places moves =>
    subst moves
    rw [movedIf_loadedVersion, movedIf_loadedStage]
    cases admits <;> exact ⟨rfl, rfl⟩
  | bidRetracted isOpen finds fits retracts moves =>
    subst moves
    rw [movedIf_loadedVersion, movedIf_loadedStage]
    exact ⟨rfl, rfl⟩
  | readyToggled isActive finds moves =>
    subst moves
    rw [movedIf_loadedVersion, movedIf_loadedStage]
    exact ⟨rfl, rfl⟩
  | _ => exact ⟨rfl, rfl⟩

theorem Outcome.follows (h : d.Outcome limits user action after reply) :
    d.Follows after.book.run := by
  cases h with
  | bidPlaced admits fits places moves =>
    obtain ⟨hrun, _, _, hversion, hnow⟩ := admits.frame
    subst moves
    refine .of_movedIf ?_ hversion hnow fun hc => ?_
    · rw [← hversion, ← hrun, ← (OrderBook.placeBid_frame places).1]
      rfl
    · simp only [Bool.and_eq_true, decide_eq_true_eq] at hc
      rw [hc.1]
      rfl
  | bidRetracted isOpen finds fits retracts moves =>
    obtain ⟨_, rfl⟩ := OrderBook.retractBid_eq_ok_iff.mp retracts
    subst moves
    refine .of_movedIf rfl rfl rfl fun hc => ?_
    simp only [Bool.and_eq_true, decide_eq_true_eq] at hc
    rw [hc.1]
    rfl
  | readyToggled isActive finds moves =>
    subst moves
    exact .of_movedIf rfl rfl rfl fun _ => by rw [isActive]; rfl
  | helperSet leads isLive finds => exact .stays
  | confirmed leads allowed => exact .moves allowed
  | shoppingStarted leads allowed drawsUp =>
    obtain ⟨_, rfl, _⟩ := OrderBook.drawUpList_eq_ok_iff.mp drawsUp
    exact follows_movedWith rfl allowed
  | purchaseRecorded isShopping mayShop reads finds => exact .stays
  | purchaseUndone isShopping mayShop finds wasBought => exact .stays
  | shoppingBalanced leads allowed balanced handsOut =>
    exact follows_movedWith (OrderBook.handOut_run handsOut) allowed
  | shoppingUnbalanced leads isShopping unbalanced =>
    exact .moves (by rw [isShopping]; rfl)
  | adjustingFinished leads isAdjusting balanced handsOut =>
    exact follows_movedWith (OrderBook.handOut_run handsOut) (by rw [isAdjusting]; rfl)
  | pickedUp isDistributing mayShop finds hasGoods => exact .stays
  | completed leads isDistributing isDone => exact .moves (by rw [isDistributing]; rfl)
  | cancelled leads allowed => exact .moves allowed

theorem Outcome.run_id (h : d.Outcome limits user action after reply) :
    after.book.run.id = d.book.run.id :=
  h.follows.id

theorem Outcome.version (h : d.Outcome limits user action after reply) :
    after.book.run.version = d.loadedVersion + 1 :=
  h.follows.version

theorem Outcome.stage_cases (h : d.Outcome limits user action after reply) :
    after.stage = d.stage ∨ d.stage.canMove after.stage = true := by
  have hfollows := h.follows
  unfold stage at hfollows ⊢
  generalize after.book.run = run at hfollows ⊢
  cases hfollows with
  | stays => exact .inl rfl
  | moves allowed => exact .inr allowed

/-! ## Drafts that are not touched -/

theorem Outcome.eq_moved_of_isTouched_eq_false (h : d.Outcome limits user action after reply)
    (untouched : after.isTouched = false) :
    ∃ new, d.stage.canMove new = true ∧ after = d.moved new := by
  cases h with
  | bidPlaced admits fits places moves
  | bidRetracted isOpen finds fits retracts moves
  | readyToggled isActive finds moves =>
    subst moves
    rw [movedIf_isTouched] at untouched
    cases untouched
  | confirmed leads allowed => exact ⟨_, allowed, rfl⟩
  | shoppingUnbalanced leads isShopping unbalanced =>
    exact ⟨_, by rw [isShopping]; rfl, rfl⟩
  | completed leads isDistributing isDone => exact ⟨_, by rw [isDistributing]; rfl, rfl⟩
  | cancelled leads allowed => exact ⟨_, allowed, rfl⟩
  | _ => cases untouched

/-! ## The participants -/

/-- What may become of the participants and of their counter: someone joins at the end, or marks of
one change. -/
inductive Gathers (d : Draft) (user : UserId) : List Participation → Nat → Prop
  | stays : Gathers d user d.book.participations d.counters.participation
  | joins (unknown : d.book.participationOf? user = none) :
      Gathers d user
        (d.book.participations ++
          [.join ⟨d.counters.participation⟩ d.book.run.id user false d.now])
        (followingNumber d.counters.participation)
  | marks {id : ParticipationId} {f : Participation → Participation}
      (keeps : ∀ p, f p = { p with isReady := (f p).isReady, isHelper := (f p).isHelper }) :
      Gathers d user (updateFirst (·.id = id) f d.book.participations) d.counters.participation

theorem gathers_of_handOut (user : UserId) {allocations : List Allocation} {book : OrderBook}
    {counters : Counters} {now : Instant}
    (handsOut : d.book.handOut now d.counters = .ok (allocations, book, counters)) :
    d.Gathers user book.participations counters.participation := by
  rw [OrderBook.handOut_participations handsOut, OrderBook.handOut_counters handsOut]
  exact .stays

theorem Outcome.gathers (h : d.Outcome limits user action after reply) :
    d.Gathers user after.book.participations after.counters.participation := by
  cases h with
  | @bidPlaced _ _ _ _ _ _ admitted _ placed admits fits places moves =>
    subst moves
    rw [movedIf_participations, movedIf_counters]
    show d.Gathers user placed.book.participations placed.counters.participation
    rw [(OrderBook.placeBid_frame places).2.1, OrderBook.placeBid_counters places]
    cases admits with
    | participant => exact .stays
    | newcomer isOpen reads unknown => exact .joins unknown
  | bidRetracted isOpen finds fits retracts moves =>
    obtain ⟨_, rfl⟩ := OrderBook.retractBid_eq_ok_iff.mp retracts
    subst moves
    rw [movedIf_participations, movedIf_counters]
    exact .stays
  | readyToggled isActive finds moves =>
    subst moves
    rw [movedIf_participations, movedIf_counters]
    exact .marks fun p => rfl
  | helperSet leads isLive finds => exact .marks fun p => rfl
  | shoppingStarted leads allowed drawsUp =>
    obtain ⟨_, rfl, rfl⟩ := OrderBook.drawUpList_eq_ok_iff.mp drawsUp
    show d.Gathers user d.book.participations (itemsToBuy _ _ _).2.participation
    rw [(itemsToBuy_enters ..).2]
    exact .stays
  | shoppingBalanced leads allowed balanced handsOut =>
    have hgathers := gathers_of_handOut user handsOut
    exact hgathers
  | adjustingFinished leads isAdjusting balanced handsOut =>
    have hgathers := gathers_of_handOut user handsOut
    exact hgathers
  | _ => exact .stays

theorem Outcome.map_leader? (h : d.Outcome limits user action after reply) {β : Type}
    (f : Participation → β)
    (keeps : ∀ p isReady isHelper, f { p with isReady, isHelper } = f p) :
    after.book.leader?.map f = d.book.leader?.map f := by
  have hgathers := h.gathers
  unfold OrderBook.leader?
  generalize after.book.participations = participations, after.counters.participation = next
    at hgathers ⊢
  cases hgathers with
  | stays => rfl
  | joins unknown =>
    rw [List.find?_append]
    simp [Participation.join]
  | @marks id g marks =>
    refine map_find?_updateFirst f (fun p => by rw [marks p]) fun p => ?_
    rw [marks p]
    exact keeps p _ _

theorem Outcome.leader?_any (h : d.Outcome limits user action after reply) (someone : UserId) :
    after.book.leader?.any (·.user = someone) = d.book.leader?.any (·.user = someone) := by
  have hmap := congrArg (Option.any (· = someone)) (h.map_leader? (·.user) fun _ _ _ => rfl)
  simpa [Option.any_map, Function.comp_def] using hmap

end Draft

end BuyingClub
