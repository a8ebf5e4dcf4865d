import BuyingClub.Proofs.ExactHandout
import BuyingClub.Proofs.OrderBook.Settling
import BuyingClub.Proofs.OrderBook.Shares

/-!
# Fair shares

In a shortage everybody gets what is due to them but for the rounding. Nobody gets more than they
ask for, but for the last one, who gets what remains.
-/

namespace BuyingClub

namespace OrderBook

variable {bought : Purchase} {purchases : List Purchase} {book : OrderBook}

theorem handOutAll_sharesFairly (leader : ParticipationId) (now : Instant) (counters : Counters)
    (distinct : (purchases.map (·.product)).Nodup) (hbought : bought ∈ purchases)
    (hnonneg : 0 ≤ bought.quantity) (hshort : bought.quantity < book.demand bought.product)
    (sound : ∀ b ∈ book.bids, b.countsFor bought.product = true →
      0 ≤ b.quantity ∧ FitsAmount b.quantity.hundredths) :
    let shared := (handOutAll leader now purchases book counters).2.1.bids.filter
      (·.countsFor bought.product)
    shared.map (·.emptied) =
        (book.bids.filter (·.countsFor bought.product)).map (·.emptied) ∧
      AreFairShares bought.quantity (book.demand bought.product) (shared.length - 1) shared := by
  intro shared
  have hshared := handOutAll_filter_of_short leader now counters distinct hbought hshort
  have hsame : shared.map (·.emptied) =
      (book.bids.filter (·.countsFor bought.product)).map (·.emptied) :=
    (congrArg (List.map (·.emptied)) hshared).trans (map_prorate _ (fun _ _ _ => rfl) ..)
  have hlength : shared.length = (book.bids.filter (·.countsFor bought.product)).length := by
    simpa using congrArg List.length hsame
  refine ⟨hsame, ?_⟩
  rw [hlength]
  exact handOutAll_areFairShares leader now counters distinct hbought hnonneg hshort sound

end OrderBook

/-- Let what was bought be handed out in a book with a leader, with one line for a product, and with
committed bids that are not negative. The handout succeeds. Of every product that was bought, but
not enough of it, the committed bids are those from before but for what is handed out, and each of
them is off its exact share by half a hundredth for each other one at most. All of them but the last
get no more than they ask for. -/
theorem shortage_shared_fairly {book : OrderBook} {leader : Participation}
    (leads : book.leader? = some leader)
    (nonneg : ∀ b ∈ book.bids, b.isCommitted = true → 0 ≤ b.quantity)
    (list : (book.items.map (·.product)).Nodup) (now : Instant) (counters : Counters) :
    ∃ allocations after counters',
      book.handOut now counters = .ok (allocations, after, counters') ∧
      ∀ item ∈ book.items, ∀ purchased, item.bought? = some purchased → 0 < purchased →
        purchased < book.demand item.product →
        FitsAmount (book.demand item.product).hundredths →
          let before := book.bids.filter (·.countsFor item.product)
          let shared := after.bids.filter (·.countsFor item.product)
          shared.map (·.emptied) = before.map (·.emptied) ∧
            AreFairShares purchased (book.demand item.product) (shared.length - 1) shared := by
  refine ⟨_, _, _, OrderBook.handOut_eq_ok_iff.mpr ⟨leader, leads, rfl⟩, ?_⟩
  intro item hitem purchased hbought hpositive hshort hfits
  have hmem : ⟨item.product, purchased, item.purchasedPrice.getD 0⟩ ∈ book.purchases :=
    OrderBook.mem_purchases_iff.mpr ⟨item, hitem, purchased, hbought, hpositive, rfl⟩
  refine OrderBook.handOutAll_sharesFairly leader.id now counters
    (list.sublist book.purchases_sublist) hmem (Int.le_of_lt hpositive) hshort
    fun b hb hcounts => ?_
  have hcommitted : ∀ c ∈ book.bids.filter (·.countsFor item.product), 0 ≤ c.quantity :=
    fun c hc => nonneg c (List.mem_filter.mp hc).1
      (Bid.isCommitted_of_countsFor (List.mem_filter.mp hc).2)
  have hbefore : b ∈ book.bids.filter (·.countsFor item.product) :=
    List.mem_filter.mpr ⟨hb, hcounts⟩
  have hle := le_committedTotal hcommitted hbefore hcounts
  rw [committedTotal_filter, ← OrderBook.hundredths_demand] at hle
  have hq : 0 ≤ b.quantity.hundredths := hcommitted b hbefore
  refine ⟨hq, ?_⟩
  unfold FitsAmount at hfits ⊢
  omega

/-- One unit was bought of three, for three who bid for a unit each. -/
def OrderBook.ofShortage : OrderBook where
  run := .start ⟨1⟩ ⟨1⟩ ⟨1⟩ (.ofSeconds 0)
  participations := [.join ⟨1⟩ ⟨1⟩ ⟨1⟩ true (.ofSeconds 0)]
  bids := [1, 2, 3].map fun n => .forSurplus ⟨n⟩ ⟨n⟩ ⟨1⟩ (.units 1) (.ofSeconds 0)
  items := [(ShoppingItem.toBuy ⟨1⟩ ⟨1⟩ ⟨1⟩ (.units 3)).purchased (.units 1) ⟨100⟩ ⟨100⟩ 0]

/-- Two get a third of it, and the last gets what remains. -/
theorem shortage_shared_among_three :
    ∃ allocations after counters',
      OrderBook.ofShortage.handOut (.ofSeconds 60) .start = .ok (allocations, after, counters') ∧
      after.bids.map (·.distributedQuantity) = [some ⟨33⟩, some ⟨33⟩, some ⟨34⟩] ∧
      AreFairShares (.units 1) (.units 3) 2 (after.bids.filter (·.countsFor ⟨1⟩)) := by
  obtain ⟨allocations, after, counters', hhandOut, hshares⟩ := shortage_shared_fairly
    (show OrderBook.ofShortage.leader? = _ from rfl) (by decide) (by decide) (.ofSeconds 60) .start
  have hafter : after.bids.map (·.distributedQuantity) = [some ⟨33⟩, some ⟨33⟩, some ⟨34⟩] ∧
      (after.bids.filter (·.countsFor ⟨1⟩)).length = 3 := by
    cases hhandOut
    decide
  have hfair : AreFairShares (.units 1) (.units 3)
      ((after.bids.filter (·.countsFor ⟨1⟩)).length - 1) (after.bids.filter (·.countsFor ⟨1⟩)) :=
    (hshares _ (List.mem_singleton_self _) _ rfl (by decide) (by decide)
      (by unfold FitsAmount; decide)).2
  rw [hafter.2] at hfair
  exact ⟨allocations, after, counters', hhandOut, hafter.1, hfair⟩

/-! ## Handing out by force -/

/-- Before the handout nothing is in anybody's hands, so each split leaves the other fields. -/
theorem OrderBook.handOut_sharesFairly {book after : OrderBook} {now : Instant}
    {counters counters' : Counters} {allocations : List Allocation} (list : IsSoundList book.items)
    (waiting : AreWaiting book.bids)
    (h : book.handOut now counters = .ok (allocations, after, counters')) {a : Allocation}
    (ha : a ∈ allocations) (prorated : a.split = .prorated) :
    let shared := after.bids.filter (·.countsFor a.product)
    shared.map (·.emptied) = book.bids.filter (·.countsFor a.product) ∧
      AreFairShares a.purchased a.requested (shared.length - 1) shared := by
  obtain ⟨leader, _, hall⟩ := handOut_eq_ok_iff.mp h
  have hdistinct := list.distinct.sublist book.purchases_sublist
  have hallocations := handOutAll_allocations leader.id now book counters hdistinct
  rw [hall] at hallocations
  dsimp only at hallocations
  rw [hallocations] at ha
  obtain ⟨bought, hbought, rfl⟩ := List.mem_map.mp ha
  obtain ⟨_, _, quantity, _, hpositive, rfl⟩ := mem_purchases_iff.mp hbought
  obtain ⟨hsame, hfair⟩ := handOutAll_sharesFairly leader.id now counters hdistinct
    hbought (Int.le_of_lt hpositive) (Split.between_eq_prorated_iff.mp prorated) fun b hb _ =>
      ⟨(waiting.each b hb).sound.1, (waiting.each b hb).sound.fits⟩
  rw [hall] at hsame hfair
  refine ⟨hsame.trans ?_, hfair⟩
  refine (List.map_congr_left fun b hb => ?_).trans (List.map_id _)
  exact (waiting.each b (List.mem_filter.mp hb).1).emptyHanded.emptied_eq

theorem Draft.Outcome.handsOut_of_finished {limits : Limits} {d after : Draft} {user : UserId}
    {force : Bool} {reply : Reply}
    (h : d.Outcome limits user (.finishAdjusting force) after reply) :
    d.stage = .adjusting ∧
      ∃ book counters, d.book.handOut d.now d.counters = .ok (reply.allocations, book, counters) ∧
        after.book.bids = book.bids := by
  cases h with
  | adjustingFinished leads isAdjusting balanced handsOut =>
    exact ⟨isAdjusting, _, _, handsOut, rfl⟩

/-- Let adjusting be finished by force in a stored run. Of each product that was bought, but not
enough of it, the committed bids are those from before but for what is handed out. All of them but
the last get no more than they ask for. The last one gets what remains, and so at most half a
hundredth more than it asks for, for each other one but one. -/
theorem forced_shortage_overserves_last_only {terms : Terms} {desk after : Desk} {run : RunId}
    {book later : OrderBook} {command : Command} {now : Instant} {reply : Reply}
    (h : desk.Reachable terms) (finds : desk.repository.store.find? run = some book)
    (forced : command.action = .finishAdjusting true)
    (handled : (Desk.handle terms run command now).on desk = (.ok reply, after))
    (findsLater : after.repository.store.find? run = some later) :
    ∀ a ∈ reply.allocations, a.split = .prorated →
      let shared := later.bids.filter (·.countsFor a.product)
      shared.map (·.emptied) = book.bids.filter (·.countsFor a.product) ∧
      (∀ b ∈ shared, b.distributedQuantity = some b.share ∧ 0 ≤ b.share) ∧
      (∀ b ∈ shared.dropLast, b.share ≤ b.quantity ∧ (b.quantity = 0 → b.share = 0)) ∧
      ∀ b ∈ shared.getLast?, 2 * (b.share - b.quantity).hundredths ≤ (shared.length - 2 : Nat) := by
  have hreachable := h.book (Store.mem_of_find? finds)
  obtain ⟨d, houtcome, hstored⟩ := Desk.handle_ok_of_find? h.isUnraced finds handled
  obtain rfl : d.book = later := Option.some.inj (hstored.symm.trans findsLater)
  rw [forced] at houtcome
  obtain ⟨hadjusting, handed, counters, hhandOut, hbids⟩ := houtcome.handsOut_of_finished
  have hwaiting := hreachable.isConsistent.waiting (by
    rw [show book.run.stage = .adjusting from hadjusting]
    rfl)
  have hdistinct := hreachable.isConsistent.list.distinct.sublist book.purchases_sublist
  intro a ha hprorated shared
  obtain ⟨hsame, hfair⟩ := OrderBook.handOut_sharesFairly hreachable.isConsistent.list hwaiting
    hhandOut ha hprorated
  rw [← hbids] at hsame hfair
  refine ⟨hsame, fun b hb => ⟨(hfair.each b hb).handedOut, (hfair.each b hb).nonneg⟩,
    fun b hb => ⟨hfair.most b hb, fun hzero => ?_⟩, hfair.last⟩
  have hnone := hfair.most b hb
  have hnonneg := (hfair.each b (List.mem_of_mem_dropLast hb)).nonneg
  rw [hzero] at hnone
  ext
  exact Int.le_antisymm hnone hnonneg

namespace Desk

/-- Four members of a group, and one store. -/
def quartetTerms : Terms :=
  ⟨⟨[1, 2, 3, 4].map fun n => (⟨1⟩, ⟨n⟩), [(⟨1⟩, "Market")], [], []⟩, .default⟩

/-- Three of them bid for one unit of a product each, and the last one bids for nothing of it. One
unit is bought. -/
def quartetTurns : List Turn :=
  [.create ⟨1⟩ ⟨1⟩ ⟨1⟩ (.ofSeconds 0),
    tripTurn 1 (.placeBid ⟨1⟩ (.ofInt 1) false none),
    tripTurn 2 (.placeBid ⟨1⟩ (.ofInt 1) false none),
    tripTurn 3 (.placeBid ⟨1⟩ (.ofInt 1) false none),
    tripTurn 4 (.placeBid ⟨1⟩ (.ofInt 0) false none),
    tripTurn 1 .forceConfirm,
    tripTurn 1 .startShopping,
    tripTurn 1 (.recordPurchase ⟨1⟩ (.ofInt 1) (.ofInt 100) none),
    tripTurn 1 .completeShopping]

/-- Adjusting is finished by force. -/
def forcedFinish : Work Reply :=
  handle quartetTerms ⟨1⟩ ⟨⟨1⟩, .finishAdjusting true⟩ (.ofSeconds 60)

theorem forcedFinish_of_quartet :
    ∃ (book later : OrderBook) (reply : Reply) (after : Desk),
      (opened.takeAll quartetTerms quartetTurns).repository.store.find? ⟨1⟩ = some book ∧
      book.run.stage = .adjusting ∧
      forcedFinish.on (opened.takeAll quartetTerms quartetTurns) = (.ok reply, after) ∧
      after.repository.store.find? ⟨1⟩ = some later ∧
      reply.allocations = [⟨⟨1⟩, .units 3, .units 1, .prorated⟩] ∧
      ∃ b ∈ later.bids, b.countsFor ⟨1⟩ = true ∧ b.quantity = 0 ∧
        b.distributedQuantity = some ⟨1⟩ := by
  have hbook : ((opened.takeAll quartetTerms quartetTurns).repository.store.find? ⟨1⟩).any
      (·.run.stage = .adjusting) = true := by decide +kernel
  have hreply : (forcedFinish.on (opened.takeAll quartetTerms quartetTurns)).1.toOption.any
      (·.allocations = [⟨⟨1⟩, .units 3, .units 1, .prorated⟩]) = true := by decide +kernel
  have hlater : ((forcedFinish.on
      (opened.takeAll quartetTerms quartetTurns)).2.repository.store.find? ⟨1⟩).any
        (·.bids.any fun b => b.countsFor ⟨1⟩ && b.quantity = 0 &&
          b.distributedQuantity = some ⟨1⟩) = true := by decide +kernel
  obtain ⟨book, finds, hstage⟩ := (Option.any_eq_true _ _).mp hbook
  rcases hhandle : forcedFinish.on (opened.takeAll quartetTerms quartetTurns)
    with ⟨why | reply, after⟩
  · rw [hhandle] at hreply
    cases hreply
  · rw [hhandle] at hreply hlater
    obtain ⟨later, findsLater, hbids⟩ := (Option.any_eq_true _ _).mp hlater
    obtain ⟨b, hb, hsame⟩ := List.any_eq_true.mp hbids
    simp only [Bool.and_eq_true, decide_eq_true_eq] at hsame
    exact ⟨book, later, reply, after, finds, of_decide_eq_true hstage, rfl, findsLater,
      of_decide_eq_true hreply, b, hb, hsame.1.1, hsame.1.2, hsame.2⟩

end Desk

/-- The one who bid for nothing comes last. The others get a third each, and a hundredth remains. -/
theorem shortage_serves_who_asks_for_nothing :
    ∃ (book later : OrderBook) (reply : Reply) (after : Desk),
      (Desk.opened.takeAll Desk.quartetTerms Desk.quartetTurns).repository.store.find? ⟨1⟩ =
        some book ∧
      book.run.stage = .adjusting ∧
      Desk.forcedFinish.on (Desk.opened.takeAll Desk.quartetTerms Desk.quartetTurns) =
        (.ok reply, after) ∧
      after.repository.store.find? ⟨1⟩ = some later ∧
      ∃ a ∈ reply.allocations, a.split = .prorated ∧
        ∃ b ∈ later.bids, b.countsFor a.product = true ∧ b.quantity = 0 ∧
          b.distributedQuantity = some ⟨1⟩ := by
  obtain ⟨book, later, reply, after, finds, hstage, handled, findsLater, hallocations, hbid⟩ :=
    Desk.forcedFinish_of_quartet
  have hmem : ⟨⟨1⟩, .units 3, .units 1, .prorated⟩ ∈ reply.allocations := by
    rw [hallocations]
    exact List.mem_singleton_self _
  exact ⟨book, later, reply, after, finds, hstage, handled, findsLater, _, hmem, rfl, hbid⟩

/-- That hundredth is as much as the last of four can get on top of what it asks for. -/
theorem forced_shortage_among_four :
    ∃ (book later : OrderBook) (reply : Reply) (after : Desk),
      (Desk.opened.takeAll Desk.quartetTerms Desk.quartetTurns).repository.store.find? ⟨1⟩ =
        some book ∧
      Desk.forcedFinish.on (Desk.opened.takeAll Desk.quartetTerms Desk.quartetTurns) =
        (.ok reply, after) ∧
      after.repository.store.find? ⟨1⟩ = some later ∧
      ∀ b ∈ (later.bids.filter (·.countsFor ⟨1⟩)).dropLast, b.share ≤ b.quantity := by
  obtain ⟨book, later, reply, after, finds, _, handled, findsLater, hallocations, _⟩ :=
    Desk.forcedFinish_of_quartet
  have hmem : ⟨⟨1⟩, .units 3, .units 1, .prorated⟩ ∈ reply.allocations := by
    rw [hallocations]
    exact List.mem_singleton_self _
  obtain ⟨_, _, hmost, _⟩ := forced_shortage_overserves_last_only ⟨Desk.quartetTurns, rfl⟩ finds rfl
    handled findsLater _ hmem rfl
  exact ⟨book, later, reply, after, finds, handled, findsLater, fun b hb => (hmost b hb).1⟩

end BuyingClub
