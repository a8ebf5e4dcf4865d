import BuyingClub.Proofs.Belongings

/-!
# Bids of members

A run is in planning as long as only its leader bids. It is active, confirmed and shopped for while
someone else holds a bid, of whatever kind.
-/

namespace BuyingClub

/-- Whether someone besides the leader holds a bid in this stage, where the stage tells. -/
def Stage.membersBid? : Stage → Option Bool
  | planning => some false
  | active | confirmed | shopping => some true
  | adjusting | distributing | completed | cancelled => none

theorem Stage.eq_active_of_canMove {stage : Stage} (h : stage.canMove .confirmed = true) :
    stage = .active := by
  cases stage <;> simp [canMove, next] at h ⊢

theorem Stage.eq_confirmed_of_canMove {stage : Stage} (h : stage.canMove .shopping = true) :
    stage = .confirmed := by
  cases stage <;> simp [canMove, next] at h ⊢

theorem Stage.cases_of_isOpen {stage : Stage} (h : stage.isOpen = true) :
    stage = .planning ∨ stage = .active ∨ stage = .adjusting := by
  cases stage <;> simp [isOpen] at h ⊢

namespace OrderBook

/-- Whether this is the part of someone who does not lead the run. -/
def isMembers (book : OrderBook) (id : ParticipationId) : Bool :=
  (book.participation? id).any fun p => !p.isLeader && !p.isRemoved

/-- The bids are those that the stage tells of. -/
def FitsStage (book : OrderBook) : Prop :=
  ∀ bid, book.run.stage.membersBid? = some bid → Draft.hasMemberBids book = bid

variable {book after : OrderBook}

theorem hasMemberBids_eq (book : OrderBook) :
    Draft.hasMemberBids book = (book.bids.map fun b => book.isMembers b.participation).any id := by
  rw [List.any_map]
  rfl

theorem hasMemberBids_eq_true_iff :
    Draft.hasMemberBids book = true ↔ ∃ b ∈ book.bids, book.isMembers b.participation = true := by
  rw [Draft.hasMemberBids, List.any_eq_true]
  rfl

theorem hasMemberBids_of_same
    (bidders : after.bids.map (·.participation) = book.bids.map (·.participation))
    (members : ∀ b ∈ book.bids, after.isMembers b.participation = book.isMembers b.participation) :
    Draft.hasMemberBids after = Draft.hasMemberBids book := by
  have hmap := congrArg (List.map after.isMembers) bidders
  rw [List.map_map, List.map_map] at hmap
  rw [hasMemberBids_eq, hasMemberBids_eq, ← List.map_congr_left members]
  exact congrArg (List.any · id) hmap

theorem hasMemberBids_placeBid {limits : Limits} {request : BidRequest} {now : Instant}
    {counters : Counters} {placed : PlacedBid}
    (places : book.placeBid limits request now counters = .ok placed) :
    Draft.hasMemberBids placed.book =
      (Draft.hasMemberBids book || book.isMembers request.participation) := by
  rcases (placeBid_eq_ok_iff.mp places).2 with ⟨previous, finds, rfl⟩ | ⟨unknown, _, rfl⟩
  · have hsame : Draft.hasMemberBids { book with
        bids := updateFirst (·.isOf request.participation request.product) (request.revise now)
          book.bids } = Draft.hasMemberBids book :=
      hasMemberBids_of_same (map_updateFirst (·.isOf request.participation request.product)
        (request.revise now) Bid.participation (fun _ => rfl) book.bids) fun _ _ => rfl
    have hprevious : book.isMembers request.participation = true →
        Draft.hasMemberBids book = true := by
      intro hmember
      refine hasMemberBids_eq_true_iff.mpr ⟨previous, List.mem_of_find?_eq_some finds, ?_⟩
      rw [(isOf_of_bidOf? finds).1]
      exact hmember
    rw [hsame]
    cases hmember : book.isMembers request.participation with
    | true => rw [hprevious hmember]; rfl
    | false => exact (Bool.or_false _).symm
  · rw [hasMemberBids_eq, hasMemberBids_eq, List.map_append, List.any_append]
    simp [BidRequest.newBid, isMembers, participation?]

theorem hasMemberBids_of_sublist (participations : after.participations = book.participations)
    (fewer : after.bids.Sublist book.bids) (none : Draft.hasMemberBids book = false) :
    Draft.hasMemberBids after = false := by
  rw [← Bool.not_eq_true, hasMemberBids_eq_true_iff] at none ⊢
  rintro ⟨b, hb, hmember⟩
  refine none ⟨b, fewer.subset hb, ?_⟩
  unfold isMembers participation? at hmember ⊢
  rw [← participations]
  exact hmember

end OrderBook

namespace Draft

variable {limits : Limits} {d after : Draft} {user : UserId} {action : Action} {reply : Reply}

/-! ## Who bids -/

theorem hasMemberBids_movedIf (c : Bool) (new : Stage) :
    hasMemberBids (d.movedIf c new).book = hasMemberBids d.book := by
  cases c <;> rfl

theorem Gathers.isMembers {participations : List Participation} {next : Nat} {book : OrderBook}
    {id : ParticipationId} (h : d.Gathers user participations next)
    (same : book.participations = participations)
    (known : id ∈ d.book.participations.map (·.id)) : book.isMembers id = d.book.isMembers id := by
  have hmap := h.map_participation? same known (fun p => (p.isLeader, p.isRemoved)) fun _ _ _ => rfl
  have hany := congrArg (Option.any fun marks => !marks.1 && !marks.2) hmap
  rw [Option.any_map, Option.any_map] at hany
  exact hany

theorem Outcome.hasMemberBids_of_same (h : d.Outcome limits user action after reply)
    (tidy : d.book.IsTidy)
    (bidders : after.book.bids.map (·.participation) = d.book.bids.map (·.participation)) :
    hasMemberBids after.book = hasMemberBids d.book :=
  OrderBook.hasMemberBids_of_same bidders fun b hb =>
    h.gathers.isMembers rfl (tidy.bidders b hb)

theorem Admits.isMembers {value : Binary64} {participation : ParticipationId} {quantity : Quantity}
    {admitted : Draft} (h : d.Admits limits user value participation quantity admitted)
    (tidy : d.book.IsTidy) :
    admitted.book.isMembers participation =
      !(admitted.book.participation? participation).any (·.isLeader) := by
  have hseated : AreSeated d.book.run.id admitted.book.participations := by
    cases h with
    | participant => exact tidy.seated
    | newcomer isOpen reads unknown =>
      have hgathers : d.Gathers user _ _ := .joins unknown
      exact hgathers.areSeated tidy.seated
  obtain ⟨p, hp, _, hid⟩ := h.holds
  have hsome : (admitted.book.participation? participation).isSome = true :=
    List.find?_isSome.mpr ⟨p, hp, decide_eq_true hid⟩
  obtain ⟨q, hq⟩ := Option.isSome_iff_exists.mp hsome
  have hremoved : q.isRemoved = false := hseated.noneRemoved q (List.mem_of_find?_eq_some hq)
  simp [OrderBook.isMembers, hq, hremoved]

theorem Admits.hasMemberBids {value : Binary64} {participation : ParticipationId}
    {quantity : Quantity} {admitted : Draft}
    (h : d.Admits limits user value participation quantity admitted) (tidy : d.book.IsTidy) :
    hasMemberBids admitted.book = hasMemberBids d.book := by
  cases h with
  | participant => rfl
  | newcomer isOpen reads unknown =>
    have hgathers : d.Gathers user (d.joined user).book.participations _ := .joins unknown
    exact OrderBook.hasMemberBids_of_same rfl fun b hb =>
      hgathers.isMembers rfl (tidy.bidders b hb)

theorem Admits.hasMemberBids_bidPlaced {value : Binary64} {participation : ParticipationId}
    {quantity : Quantity} {admitted : Draft} {placed : PlacedBid} {product : ProductId}
    {interestedOnly : Bool} {comment : Option String}
    (h : d.Admits limits user value participation quantity admitted)
    (places : admitted.book.placeBid limits
      ⟨participation, product, quantity, interestedOnly, comment⟩ d.now admitted.counters =
        .ok placed) (tidy : d.book.IsTidy) :
    Draft.hasMemberBids (admitted.bidPlaced user product placed).book =
      (Draft.hasMemberBids d.book || !((admitted.bidPlaced user product placed).book.participation?
        participation).any (·.isLeader)) := by
  have hparticipations : (admitted.bidPlaced user product placed).book.participations =
    admitted.book.participations := (OrderBook.placeBid_frame places).2.1
  unfold OrderBook.participation?
  rw [hparticipations, ← h.hasMemberBids tidy, ← OrderBook.participation?, ← h.isMembers tidy]
  exact OrderBook.hasMemberBids_placeBid places

/-! ## Commands -/

theorem Outcome.fitsStage (h : d.Outcome limits user action after reply) (tidy : d.book.IsTidy)
    (before : d.book.FitsStage) : after.book.FitsStage := by
  have hsame := h.hasMemberBids_of_same tidy
  intro bid hbid
  cases h with
  | @bidPlaced product _ _ _ participation _ admitted _ placed admits fits places moves =>
    subst moves
    rw [hasMemberBids_movedIf]
    rw [← stage, movedIf_stage, stage_bidPlaced admits places] at hbid
    rw [admits.hasMemberBids_bidPlaced places tidy]
    generalize ((admitted.bidPlaced user product placed).book.participation? participation).any
      (·.isLeader) = byLeader at hbid ⊢
    rcases Stage.cases_of_isOpen admits.isOpen with hstage | hstage | hstage
    · rw [before false (congrArg Stage.membersBid? hstage)]
      rw [hstage] at hbid
      cases byLeader <;> exact Option.some.inj hbid
    · rw [before true (congrArg Stage.membersBid? hstage)]
      rw [hstage] at hbid
      exact Option.some.inj hbid
    · rw [hstage] at hbid
      cases hbid
  | @bidRetracted product _ _ book _ isOpen finds fits retracts moves =>
    obtain ⟨_, hbook⟩ := OrderBook.retractBid_eq_ok_iff.mp retracts
    subst moves
    have hstays : (d.bidRetracted user product book).stage = d.stage := by
      rw [hbook]
      rfl
    have hnone : hasMemberBids d.book = false →
        hasMemberBids (d.bidRetracted user product book).book = false := by
      refine OrderBook.hasMemberBids_of_sublist (by rw [hbook]; rfl) ?_
      rw [hbook]
      exact List.eraseP_sublist
    rw [hasMemberBids_movedIf]
    rw [← stage, movedIf_stage, hstays] at hbid
    rcases Stage.cases_of_isOpen isOpen with hstage | hstage | hstage <;> rw [hstage] at hbid
    · rw [hnone (before false (congrArg Stage.membersBid? hstage))]
      exact Option.some.inj hbid
    · cases hhas : hasMemberBids (d.bidRetracted user product book).book <;> rw [hhas] at hbid <;>
        exact Option.some.inj hbid
    · cases hbid
  | readyToggled isActive finds moves =>
    subst moves
    rw [hsame (by rw [movedIf_bids]; rfl), before true (congrArg Stage.membersBid? isActive)]
    rw [← stage, movedIf_stage] at hbid
    split at hbid
    · exact Option.some.inj hbid
    · have hactive : Stage.active.membersBid? = some bid := isActive ▸ hbid
      exact Option.some.inj hactive
  | helperSet leads isLive finds => exact (hsame rfl).trans (before bid hbid)
  | confirmed leads allowed =>
    rw [hsame rfl, before true (congrArg Stage.membersBid? (Stage.eq_active_of_canMove allowed))]
    exact Option.some.inj hbid
  | shoppingStarted leads allowed drawsUp =>
    obtain ⟨_, rfl, _⟩ := OrderBook.drawUpList_eq_ok_iff.mp drawsUp
    rw [hsame rfl, before true (congrArg Stage.membersBid? (Stage.eq_confirmed_of_canMove allowed))]
    exact Option.some.inj hbid
  | purchaseRecorded isShopping mayShop reads finds => exact (hsame rfl).trans (before bid hbid)
  | purchaseUndone isShopping mayShop finds wasBought => exact (hsame rfl).trans (before bid hbid)
  | pickedUp isDistributing mayShop finds hasGoods =>
    have hdistributing : Stage.distributing.membersBid? = some bid := isDistributing ▸ hbid
    cases hdistributing
  | _ => cases hbid

end Draft

/-! ## Every stored book -/

namespace OrderBook

variable {book : OrderBook}

theorem IsNew.fitsStage (h : book.IsNew) : book.FitsStage := by
  obtain ⟨id, group, store, leader, participation, now, rfl⟩ := h
  rintro bid ⟨⟩
  rfl

theorem isMembers_eq_true_iff {id : ParticipationId} :
    book.isMembers id = true ↔
      ∃ p, book.participation? id = some p ∧ p.isLeader = false ∧ p.isRemoved = false := by
  simp [isMembers, Option.any_eq_true]

theorem IsTidy.leads_of_bid (tidy : book.IsTidy) (none : Draft.hasMemberBids book = false) {b : Bid}
    (hb : b ∈ book.bids) :
    ∃ p ∈ book.participations, p.id = b.participation ∧ p.isLeader = true := by
  obtain ⟨q, hq, hid⟩ := List.mem_map.mp (tidy.bidders b hb)
  have hsome : (book.participation? b.participation).isSome = true :=
    List.find?_isSome.mpr ⟨q, hq, decide_eq_true hid⟩
  obtain ⟨p, hp⟩ := Option.isSome_iff_exists.mp hsome
  have hmem : p ∈ book.participations := List.mem_of_find?_eq_some hp
  refine ⟨p, hmem, id_of_participation? hp, ?_⟩
  by_contra hleads
  rw [Bool.not_eq_true] at hleads
  have hmember : book.isMembers b.participation = true :=
    isMembers_eq_true_iff.mpr ⟨p, hp, hleads, tidy.seated.noneRemoved p hmem⟩
  rw [hasMemberBids_eq_true_iff.mpr ⟨b, hb, hmember⟩] at none
  cases none

end OrderBook

/-- While a stored run is in planning, every bid is the leader's, and unless a counter has run over
nobody else has a part that bids. While it is active, confirmed or shopped for, someone who does not
lead it holds a bid. -/
theorem members_bid_by_stage {steps : List (Terms × Desk.Turn)} {book : OrderBook}
    (stored : book ∈ (Desk.opened.takeEach steps).repository.store.books) :
    (book.run.stage = .planning →
        (∀ b ∈ book.bids, ∃ p ∈ book.participations,
          p.id = b.participation ∧ p.isLeader = true) ∧
        (Desk.opened.Lasts steps →
          ∀ p ∈ book.participations, p.isLeader = false → ∀ b ∈ book.bids,
            b.participation ≠ p.id)) ∧
      (book.run.stage = .active ∨ book.run.stage = .confirmed ∨ book.run.stage = .shopping →
        ∃ b ∈ book.bids, ∃ p ∈ book.participations,
          p.id = b.participation ∧ p.isLeader = false) := by
  obtain ⟨tidy, fits⟩ : book.IsTidy ∧ book.FitsStage := by
    refine Desk.takeEach_forall_books (motive := fun book => book.IsTidy ∧ book.FitsStage)
      (Repository.isUnraced_ofStore _) (by rintro _ ⟨⟩)
      (fun book isNew => ⟨isNew.isTidy, isNew.fitsStage⟩) ?_ steps book stored
    rintro limits book _ ⟨tidy, fits⟩ ⟨counters, now, user, action, d, reply, houtcome, rfl⟩
    exact ⟨houtcome.isTidy tidy, houtcome.fitsStage tidy fits⟩
  refine ⟨fun planning => ?_, fun shared => ?_⟩
  · have hleads : ∀ b ∈ book.bids, ∃ p ∈ book.participations,
        p.id = b.participation ∧ p.isLeader = true := fun b hb =>
      tidy.leads_of_bid (fits false (congrArg Stage.membersBid? planning)) hb
    refine ⟨hleads, fun lasts p hp hmember b hb hid => ?_⟩
    have hcover := Desk.takeEach_cover (Repository.isUnraced_ofStore _) (.empty _) steps lasts
    have hdistinct := (hcover.participations.each book stored).nodup
    obtain ⟨q, hq, hqid, hqleads⟩ := hleads b hb
    obtain rfl : q = p := List.inj_on_of_nodup_map hdistinct hq hp (hqid.trans hid)
    rw [hmember] at hqleads
    cases hqleads
  · have hbids : book.run.stage.membersBid? = some true := by
      rcases shared with hstage | hstage | hstage <;> rw [hstage] <;> rfl
    obtain ⟨b, hb, hmember⟩ := OrderBook.hasMemberBids_eq_true_iff.mp (fits true hbids)
    obtain ⟨p, hp, hleads, _⟩ := OrderBook.isMembers_eq_true_iff.mp hmember
    exact ⟨b, hb, p, List.mem_of_find?_eq_some hp, OrderBook.id_of_participation? hp, hleads⟩

namespace Desk

/-- Both ask for something, and the one who does not lead takes the bid back. -/
def retractedSteps : List (Terms × Turn) :=
  [(tripTerms, .create ⟨1⟩ ⟨1⟩ ⟨1⟩ (.ofSeconds 0)),
    (tripTerms, tripTurn 2 (.placeBid ⟨1⟩ (.ofInt 2) true none)),
    (tripTerms, tripTurn 1 (.placeBid ⟨1⟩ (.ofInt 4) false none)),
    (tripTerms, tripTurn 2 (.retractBid ⟨1⟩))]

end Desk

/-- Mere interest of the second one makes the run active. Without it only the leader bids, though
both take part. -/
theorem members_bid_by_stage_when_retracted :
    ∃ active planned : OrderBook,
      active ∈ (Desk.opened.takeEach (Desk.retractedSteps.take 3)).repository.store.books ∧
      active.run.stage = .active ∧
      (∃ b ∈ active.bids, ∃ p ∈ active.participations,
        p.id = b.participation ∧ p.isLeader = false) ∧
      planned ∈ (Desk.opened.takeEach Desk.retractedSteps).repository.store.books ∧
      planned.run.stage = .planning ∧ planned.participations.length = 2 ∧
      ∀ p ∈ planned.participations, p.isLeader = false → ∀ b ∈ planned.bids,
        b.participation ≠ p.id := by
  have hactive : ((Desk.opened.takeEach (Desk.retractedSteps.take 3)).repository.store.find?
      ⟨1⟩).any (fun b => b.run.stage = .active) = true := by
    decide +kernel
  have hplanned : ((Desk.opened.takeEach Desk.retractedSteps).repository.store.find? ⟨1⟩).any
      (fun b => b.run.stage = .planning ∧ b.participations.length = 2) = true := by
    decide +kernel
  have hlasts : Desk.opened.Lasts Desk.retractedSteps := by decide +kernel
  obtain ⟨active, hfindActive, hactive⟩ := (Option.any_eq_true _ _).mp hactive
  obtain ⟨planned, hfindPlanned, hplanned⟩ := (Option.any_eq_true _ _).mp hplanned
  simp only [decide_eq_true_eq] at hactive hplanned
  have hstored := Store.mem_of_find? hfindPlanned
  exact ⟨active, planned, Store.mem_of_find? hfindActive, hactive,
    (members_bid_by_stage (Store.mem_of_find? hfindActive)).2 (.inl hactive), hstored, hplanned.1,
    hplanned.2, ((members_bid_by_stage hstored).1 hplanned.1).2 hlasts⟩

end BuyingClub
