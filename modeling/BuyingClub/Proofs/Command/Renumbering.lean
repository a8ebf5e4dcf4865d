import BuyingClub.Proofs.Command.Frame
import BuyingClub.Proofs.OrderBook.Renumbering

/-!
# Commands with other counters

A command does the same whatever the counters are, but for the numbers it draws from them.
-/

namespace BuyingClub

namespace Draft

/-- The draft as it would be with other counters. -/
def recount (d : Draft) (counters : Counters) : Draft :=
  { d with counters }

/-- The draft under other numbers. -/
def renumber (ρ : Renumbering) (counters : Counters) (d : Draft) : Draft :=
  { d with book := d.book.renumber ρ, counters }

/-- Nothing was drawn, and with the other counters the result is the same. -/
def IsSame (d : Draft) (counters' : Counters) (done done' : Draft × Reply) : Prop :=
  done.1.counters = d.counters ∧ done' = (done.1.recount counters', done.2)

/-- The result is the same under other numbers. -/
def IsRenumbered (ρ : Renumbering) (done done' : Draft × Reply) : Prop :=
  done'.1.book = done.1.book.renumber ρ ∧ done'.2 = done.2.renumber ρ

variable {limits : Limits} {d d' : Draft} {user : UserId} {counters' : Counters} {ρ : Renumbering}

/-! ## Moves -/

section Moves

variable {α β : Type} {R : α → β → Prop} {next : Draft → Except Refusal α}
  {next' : Draft → Except Refusal β} {new : Stage}

theorem move_agree (stage : d'.stage = d.stage)
    (nexts : Agree R (next (d.moved new)) (next' (d'.moved new))) :
    Agree R (d.move new >>= next) (d'.move new >>= next') := by
  have hchecks : d'.checkMove new = d.checkMove new := congrArg (Stage.checkMove · new) stage
  unfold move
  rw [hchecks]
  cases d.checkMove new with
  | error why => exact .error why
  | ok u => exact nexts

theorem moveIf_agree {condition condition' : Bool} (same : condition' = condition)
    (stage : d'.stage = d.stage)
    (nexts : Agree R (next (d.movedIf condition new)) (next' (d'.movedIf condition new))) :
    Agree R (if condition then d.move new >>= next else pure d >>= next)
      (if condition' then d'.move new >>= next' else pure d' >>= next') := by
  subst same
  cases condition' with
  | true => exact move_agree stage nexts
  | false => exact nexts

end Moves

/-! ## Where nothing is drawn -/

theorem isSame_movedIf {changed : Draft} {condition : Bool} {new : Stage}
    (kept : changed.counters = d.counters) (reply : Stage → Reply) :
    d.IsSame counters'
      (changed.movedIf condition new, reply (changed.movedIf condition new).stage)
      ((changed.recount counters').movedIf condition new,
        reply ((changed.recount counters').movedIf condition new).stage) := by
  cases condition <;> exact ⟨kept, rfl⟩

theorem retractBid_recount (product : ProductId) :
    Agree (d.IsSame counters') (d.retractBid user product)
      ((d.recount counters').retractBid user product) := by
  unfold retractBid
  refine .bind_same fun _ => .bind_same fun p => .checkIf (.bind_same fun (bid, book) => ?_)
  refine moveIf_agree (d := d.bidRetracted user product book) rfl rfl (.ok ?_)
  exact isSame_movedIf rfl (.bidRetracted bid)

theorem toggleReady_recount :
    Agree (d.IsSame counters') (d.toggleReady user) ((d.recount counters').toggleReady user) := by
  unfold toggleReady
  refine .bind_same fun _ => .bind_same fun p => ?_
  refine moveIf_agree (d := d.readyToggled user (d.identified p)) rfl rfl (.ok ?_)
  exact isSame_movedIf rfl (.readyToggled _)

theorem setHelper_recount (helper : UserId) (isHelper : Bool) :
    Agree (d.IsSame counters') (d.setHelper user helper isHelper)
      ((d.recount counters').setHelper user helper isHelper) :=
  .bind_same fun _ => .bind_same fun _ => .bind_same fun _ => .ok ⟨rfl, rfl⟩

theorem forceConfirm_recount :
    Agree (d.IsSame counters') (d.forceConfirm user) ((d.recount counters').forceConfirm user) :=
  .bind_same fun _ => move_agree rfl (.ok ⟨rfl, rfl⟩)

theorem recordPurchase_recount (product : ProductId) (quantity price : Binary64)
    (total : Option Binary64) :
    Agree (d.IsSame counters') (d.recordPurchase limits user product quantity price total)
      ((d.recount counters').recordPurchase limits user product quantity price total) :=
  .bind_same fun _ => .bind_same fun _ => .bind_same fun _ => .bind_same fun _ => .ok ⟨rfl, rfl⟩

theorem undoPurchase_recount (product : ProductId) :
    Agree (d.IsSame counters') (d.undoPurchase user product)
      ((d.recount counters').undoPurchase user product) :=
  .bind_same fun _ => .bind_same fun _ => .bind_same fun _ => .checkIf (.ok ⟨rfl, rfl⟩)

theorem markPickedUp_recount (bid : BidId) :
    Agree (d.IsSame counters') (d.markPickedUp user bid)
      ((d.recount counters').markPickedUp user bid) := by
  refine .bind_same fun _ => .bind_same fun _ => ?_
  dsimp only [recount]
  cases d.book.bid? bid with
  | none => exact .error _
  | some b => exact .checkIf (.ok ⟨rfl, rfl⟩)

theorem completeDistribution_recount :
    Agree (d.IsSame counters') (d.completeDistribution user)
      ((d.recount counters').completeDistribution user) :=
  .bind_same fun _ => .bind_same fun _ => .bind_same fun _ =>
    .checkIf (move_agree rfl (.ok ⟨rfl, rfl⟩))

theorem cancel_recount :
    Agree (d.IsSame counters') (d.cancel user) ((d.recount counters').cancel user) :=
  .bind_same fun _ => .bind_same fun _ => move_agree rfl (.ok ⟨rfl, rfl⟩)

/-! ## Bids -/

theorem isRenumbered_movedIf {changed changed' : Draft} {counters : Counters} {condition : Bool}
    {new : Stage} (same : changed' = changed.renumber ρ counters) (reply reply' : Stage → Reply)
    (replies : ∀ stage, reply' stage = (reply stage).renumber ρ) :
    IsRenumbered ρ (changed.movedIf condition new, reply (changed.movedIf condition new).stage)
      (changed'.movedIf condition new, reply' (changed'.movedIf condition new).stage) := by
  subst same
  cases condition <;> exact ⟨rfl, replies _⟩

theorem enterBid_renumber (inj : Function.Injective ρ.participation) {request : BidRequest}
    (next : ρ.bid ⟨d.counters.bid⟩ = ⟨counters'.bid⟩) :
    Agree (IsRenumbered ρ) (d.enterBid limits user request)
      ((d.renumber ρ counters').enterBid limits user (request.renumber ρ)) := by
  have hfits : (d.book.renumber ρ).checkChange (ρ.participation request.participation) _ _ _ = _ :=
    OrderBook.checkChange_renumber inj request.participation request.product request.quantity
      request.interestedOnly
  unfold enterBid
  dsimp only [renumber, BidRequest.renumber]
  rw [hfits]
  refine .checkIf ((OrderBook.placeBid_renumber inj next).bind ?_)
  rintro placed placed' ⟨hbid, hisNew, hbook⟩
  have hplaced : (d.renumber ρ counters').bidPlaced user request.product placed' =
      (d.bidPlaced user request.product placed).renumber ρ placed'.counters := by
    unfold bidPlaced
    rw [hbook]
    rfl
  have hbyLeader : (((d.bidPlaced user request.product placed).book.renumber ρ).participation?
      (ρ.participation request.participation)).any (·.isLeader) =
        ((d.bidPlaced user request.product placed).book.participation?
          request.participation).any (·.isLeader) := by
    rw [OrderBook.participation?_renumber inj, Option.any_map]
    rfl
  have hstarts : (d.stage = .planning &&
      !(((d.renumber ρ counters').bidPlaced user request.product placed').book.participation?
        (ρ.participation request.participation)).any (·.isLeader)) =
      (d.stage = .planning && !((d.bidPlaced user request.product placed).book.participation?
        request.participation).any (·.isLeader)) := by
    rw [hplaced]
    exact congrArg (fun byLeader => _ && !byLeader) hbyLeader
  have hstage := congrArg stage hplaced
  refine moveIf_agree (d := d.bidPlaced user request.product placed) hstarts hstage (.ok ?_)
  have hreplies (stage : Stage) : Reply.bidPlaced placed'.bid placed'.previous.isNone stage =
      (Reply.bidPlaced placed.bid placed.previous.isNone stage).renumber ρ := by
    rw [hbid, hisNew]
    rfl
  exact isRenumbered_movedIf hplaced (.bidPlaced placed.bid placed.previous.isNone)
    (.bidPlaced placed'.bid placed'.previous.isNone) hreplies

theorem join_renumber (fixes : ρ.Fixes d.book)
    (next : ρ.participation ⟨d.counters.participation⟩ = ⟨counters'.participation⟩) :
    Agree (fun done done' =>
        done' = (ρ.participation done.1, done.2.renumber ρ done'.2.counters) ∧
        done.2.counters.bid = d.counters.bid ∧ done'.2.counters.bid = counters'.bid)
      (d.join limits user) ((d.recount counters').join limits user) := by
  refine .ite (fun _ => .error _) fun _ => .ite (fun _ => .error _) fun _ => .ok ⟨?_, rfl, rfl⟩
  let p := Participation.join ⟨d.counters.participation⟩ d.book.run.id user false d.now
  have hnew : Participation.join ⟨counters'.participation⟩ d.book.run.id user false d.now =
      p.renumber ρ := by
    rw [← next]
    rfl
  have hparticipations : (d.book.participations ++ [p]).map (·.renumber ρ) =
      d.book.participations ++ [p.renumber ρ] := by
    rw [List.map_append]
    exact congrArg (· ++ [p.renumber ρ]) (congrArg OrderBook.participations fixes.renumber)
  have hbook : { d.book with participations := d.book.participations ++ [p] }.renumber ρ =
      { d.book with participations := d.book.participations ++ [p.renumber ρ] } := by
    rw [← hparticipations]
    exact congrArg (fun kept : OrderBook => { kept with
      participations := (d.book.participations ++ [p]).map (Participation.renumber ρ) })
        fixes.renumber
  refine Prod.ext next.symm ?_
  dsimp only [renumber, recount, Counters.drawParticipation]
  rw [hbook, ← hnew]

theorem admitBid_renumber (fixes : ρ.Fixes d.book)
    (next : ρ.participation ⟨d.counters.participation⟩ = ⟨counters'.participation⟩)
    (value : Binary64) :
    Agree (fun done done' => done' =
        (ρ.participation done.1, done.2.1, done.2.2.renumber ρ done'.2.2.counters) ∧
        done.2.2.counters.bid = d.counters.bid ∧ done'.2.2.counters.bid = counters'.bid)
      (d.admitBid limits user value) ((d.recount counters').admitBid limits user value) := by
  unfold admitBid
  refine .bind_same fun _ => .bind_same fun quantity => ?_
  dsimp only [recount]
  cases hfound : d.book.participationOf? user with
  | some p =>
    have hp := fixes.participations p (List.mem_of_find?_eq_some hfound)
    refine .ok ⟨?_, rfl, rfl⟩
    dsimp only [renumber]
    rw [hp, fixes.renumber]
  | none =>
    refine (join_renumber fixes next).bind fun done done' ⟨hdone', hbid, hbid'⟩ => ?_
    refine .ok ⟨?_, hbid, hbid'⟩
    exact congrArg (fun joined : ParticipationId × Draft => (joined.1, quantity, joined.2)) hdone'

theorem settle_fst (result : Except Refusal (Draft × Reply)) : (d.settle result).1 = result := by
  cases result <;> rfl

theorem placeBid_renumber (inj : Function.Injective ρ.participation) (fixes : ρ.Fixes d.book)
    (nextParticipation : ρ.participation ⟨d.counters.participation⟩ = ⟨counters'.participation⟩)
    (nextBid : ρ.bid ⟨d.counters.bid⟩ = ⟨counters'.bid⟩) (product : ProductId) (value : Binary64)
    (interestedOnly : Bool) (comment : Option String) :
    Agree (IsRenumbered ρ)
      (d.execute limits ⟨user, .placeBid product value interestedOnly comment⟩).1
      ((d.recount counters').execute limits
        ⟨user, .placeBid product value interestedOnly comment⟩).1 := by
  have hadmits : Agree _ (d.admitBid limits user value) _ :=
    admitBid_renumber fixes nextParticipation value
  unfold execute
  dsimp only
  generalize d.admitBid limits user value = admitted,
    (d.recount counters').admitBid limits user value = admitted' at hadmits
  cases hadmits with
  | error why => exact .error why
  | @ok done done' related =>
    obtain ⟨participation, quantity, joined⟩ := done
    obtain ⟨participation', quantity', joined'⟩ := done'
    obtain ⟨hdone', hbid, hbid'⟩ := related
    obtain ⟨rfl, hdone'⟩ := Prod.mk.inj hdone'
    obtain ⟨rfl, hjoined'⟩ := Prod.mk.inj hdone'
    dsimp only at hbid hbid' hjoined' ⊢
    rw [settle_fst, settle_fst, hjoined']
    refine enterBid_renumber inj ?_
    rw [hbid, hbid', nextBid]

/-! ## The list and the handout -/

theorem startShopping_renumber (fixes : ρ.Fixes d.book) :
    Agree (fun done done' => Draws ρ.item d.book.bids.length d.counters.item counters'.item
        done.1.counters.item done'.1.counters.item (IsRenumbered ρ done done'))
      (d.startShopping user) ((d.recount counters').startShopping user) := by
  refine .bind_same fun _ => .bind_same fun _ =>
    (OrderBook.drawUpList_renumber fixes d.counters counters').bind ?_
  rintro ⟨book, counters⟩ ⟨book', later⟩ ⟨hrun, hdraws⟩
  have hstage : book'.run.stage = book.run.stage := congrArg Run.stage hrun
  refine move_agree (d := { d.touch book with counters }) hstage (.ok ?_)
  refine hdraws.imp fun hbook => ?_
  dsimp only at hbook
  subst hbook
  exact ⟨rfl, rfl⟩

theorem distribute_renumber (inj : Function.Injective ρ.participation) (fixes : ρ.Fixes d.book) :
    Agree (fun done done' => done'.1 = done.1 ∧ done'.2.stage = done.2.stage ∧
        Draws ρ.bid d.book.items.length d.counters.bid counters'.bid done.2.counters.bid
          done'.2.counters.bid (done'.2.book = done.2.book.renumber ρ))
      d.distribute (d.recount counters').distribute := by
  refine (OrderBook.handOut_renumber inj fixes d.now d.counters counters').bind ?_
  rintro ⟨allocations, book, counters⟩ ⟨allocations', book', later⟩ ⟨hallocations, hrun, hdraws⟩
  have hstage : book'.run.stage = book.run.stage := congrArg Run.stage hrun
  refine move_agree (d := { d.touch book with counters }) hstage (.ok ?_)
  refine ⟨hallocations, rfl, hdraws.imp fun hbook => ?_⟩
  dsimp only at hbook
  subst hbook
  rfl

theorem completeShopping_renumber (inj : Function.Injective ρ.participation)
    (fixes : ρ.Fixes d.book) :
    Agree (fun done done' => Draws ρ.bid d.book.items.length d.counters.bid counters'.bid
        done.1.counters.bid done'.1.counters.bid (IsRenumbered ρ done done'))
      (d.completeShopping user) ((d.recount counters').completeShopping user) := by
  refine .bind_same fun _ => .bind_same fun _ => .ite (fun _ => ?_) fun _ => ?_
  · refine (distribute_renumber inj fixes).bind ?_
    rintro ⟨allocations, after⟩ ⟨allocations', after'⟩ ⟨hallocations, hstage, hdraws⟩
    dsimp only at hallocations hstage hdraws ⊢
    rw [hallocations, hstage]
    exact .ok (hdraws.imp fun hbook => ⟨hbook, rfl⟩)
  · refine move_agree rfl (.ok ⟨0, Nat.zero_le _, rfl, rfl, fun _ => ⟨?_, rfl⟩⟩)
    have hmoved : ρ.Fixes (d.moved .adjusting).book :=
      ⟨fixes.participations, fixes.bids, fixes.bidders, fixes.items⟩
    exact hmoved.renumber.symm

theorem finishAdjusting_renumber (inj : Function.Injective ρ.participation)
    (fixes : ρ.Fixes d.book) (force : Bool) :
    Agree (fun done done' => Draws ρ.bid d.book.items.length d.counters.bid counters'.bid
        done.1.counters.bid done'.1.counters.bid (IsRenumbered ρ done done'))
      (d.finishAdjusting user force) ((d.recount counters').finishAdjusting user force) := by
  refine .bind_same fun _ => .bind_same fun _ => .bind_same fun _ => .checkIf ?_
  refine (distribute_renumber inj fixes).bind ?_
  rintro ⟨allocations, after⟩ ⟨allocations', after'⟩ ⟨hallocations, _, hdraws⟩
  dsimp only at hallocations hdraws ⊢
  rw [hallocations]
  exact .ok (hdraws.imp fun hbook => ⟨hbook, rfl⟩)

end Draft

end BuyingClub
