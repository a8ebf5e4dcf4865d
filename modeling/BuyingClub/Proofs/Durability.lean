import BuyingClub.Proofs.Consistency

/-!
# What is answered is stored

A command that succeeds leaves exactly its draft in the store, whether the whole draft is written or
only the move to another stage, and its answer tells what is stored. A command that fails leaves the
store and the journal.
-/

namespace BuyingClub

/-! ## Replies -/

/-- The run, the bid, the items, the participation and the stage in a reply are those of the book
after the command. A retracted bid is one that was there and is no more. -/
def Reply.AgreesWith (user : UserId) (book after : OrderBook) : Reply → Prop
  | .bidPlaced bid _ stage =>
    after.bidOf? bid.participation bid.product = some bid ∧ stage = after.run.stage
  | .bidRetracted bid stage =>
    book.bidOf? bid.participation bid.product = some bid ∧
      after.bidOf? bid.participation bid.product = none ∧ bid ∉ after.bids ∧
      stage = after.run.stage
  | .readyToggled isReady stage =>
    (∃ p, book.participationOf? user = some p ∧
      (after.participation? p.id).map (·.isReady) = some isReady) ∧ stage = after.run.stage
  | .helperSet p => after.participation? p.id = some p
  | .confirmed run | .completed run | .cancelled run => run = after.run
  | .shoppingStarted items => items = after.items
  | .purchaseRecorded item | .purchaseUndone item => after.itemFor? item.product = some item
  | .shoppingCompleted stage _ _ => stage = after.run.stage
  | .adjustingFinished _ => after.run.stage = .distributing
  | .pickedUp bid => after.bid? bid.id = some bid

namespace OrderBook

variable {book : OrderBook} {participation : ParticipationId} {product : ProductId}

theorem placeBid_bidOf? {limits : Limits} {request : BidRequest} {now : Instant}
    {counters : Counters} {placed : PlacedBid}
    (h : book.placeBid limits request now counters = .ok placed) :
    placed.book.bidOf? placed.bid.participation placed.bid.product = some placed.bid := by
  obtain ⟨_, ⟨previous, finds, rfl⟩ | ⟨unknown, _, rfl⟩⟩ := placeBid_eq_ok_iff.mp h
  · obtain ⟨hparticipation, hproduct⟩ := isOf_of_bidOf? finds
    have hkept : ∀ b : Bid, (request.revise now b).isOf request.participation request.product =
        b.isOf request.participation request.product := fun _ => rfl
    show List.find? (fun b : Bid => b.isOf previous.participation previous.product) _ = some _
    rw [hparticipation, hproduct, find?_updateFirst_self fun b hb => by rw [hkept b, hb]]
    unfold bidOf? at finds
    rw [finds]
    rfl
  · show List.find? (fun b : Bid => b.isOf request.participation request.product) _ = some _
    unfold bidOf? at unknown
    rw [List.find?_append, unknown]
    simp [BidRequest.newBid, Bid.isOf]

theorem bidOf?_retractBid (oneEach : OneBidEach book.bids) {bid : Bid}
    (finds : book.bidOf? participation product = some bid) :
    (book.bids.eraseP (·.isOf participation product)).find? (·.isOf participation product) =
      none := by
  obtain ⟨before, later, hbids, hbefore, _, herase⟩ := exists_append_of_find? finds
  obtain ⟨rfl, rfl⟩ := isOf_of_bidOf? finds
  rw [herase, List.find?_eq_none]
  intro c hc
  rcases List.mem_append.mp hc with hc | hc
  · rw [hbefore c hc]
    exact Bool.false_ne_true
  · unfold OneBidEach at oneEach
    rw [hbids, List.pairwise_append, List.pairwise_cons] at oneEach
    rw [oneEach.2.1.1 c hc]
    exact Bool.false_ne_true

theorem itemFor?_updateItem {item : ShoppingItem} {f : ShoppingItem → ShoppingItem}
    (finds : book.itemFor? item.product = some item)
    (keeps : ∀ other : ShoppingItem, other.product = item.product →
      (f other).product = item.product) :
    (book.updateItem item.product f).itemFor? item.product = some (f item) := by
  unfold itemFor? at finds
  show List.find? (fun other => other.product = item.product)
    (updateFirst (fun other => other.product = item.product) f _) = _
  rw [find?_updateFirst_self fun other hother => ?_, finds]
  · rfl
  · simp only [decide_eq_true_eq] at hother ⊢
    exact keeps other hother

end OrderBook

namespace Draft

variable {limits : Limits} {d after : Draft} {user : UserId} {action : Action} {reply : Reply}

theorem identified_spec {p : Participation} (finds : d.book.participationOf? user = some p) :
    d.book.participation? p.id = some (d.identified p) := by
  have hmem : p ∈ d.book.participations := List.mem_of_find?_eq_some finds
  have hsome : (d.book.participation? p.id).isSome = true := by
    unfold OrderBook.participation?
    rw [List.find?_isSome]
    exact ⟨p, hmem, by simp⟩
  obtain ⟨q, hq⟩ := Option.isSome_iff_exists.mp hsome
  unfold identified
  rw [hq]
  rfl

theorem identified_id {p : Participation} (finds : d.book.participationOf? user = some p) :
    (d.identified p).id = p.id :=
  OrderBook.id_of_participation? (identified_spec finds)

theorem identified_update {p : Participation} (f : Participation → Participation)
    (keeps : ∀ q, (f q).id = q.id) (finds : d.book.participationOf? user = some p) :
    (d.book.updateParticipation (d.identified p).id f).participation? p.id =
      some (f (d.identified p)) := by
  have hspec := identified_spec finds
  rw [identified_id finds]
  unfold OrderBook.participation? at hspec
  show List.find? (fun q => q.id = p.id) (updateFirst (fun q => q.id = p.id) f _) = _
  rw [find?_updateFirst_self fun q hq => by rw [keeps q]; exact hq, hspec]
  rfl

theorem Outcome.agreesWith (h : d.Outcome limits user action after reply)
    (oneEach : d.stage.isBeforeHandout = true → OneBidEach d.book.bids) :
    reply.AgreesWith user d.book after.book := by
  cases h with
  | bidPlaced admits fits places moves =>
    subst moves
    refine ⟨?_, rfl⟩
    unfold OrderBook.bidOf?
    rw [movedIf_bids]
    exact OrderBook.placeBid_bidOf? places
  | @bidRetracted product p bid _ _ isOpen finds fits retracts moves =>
    obtain ⟨hfinds, rfl⟩ := OrderBook.retractBid_eq_ok_iff.mp retracts
    obtain ⟨hparticipation, hproduct⟩ := OrderBook.isOf_of_bidOf? hfinds
    -- The participant had one bid on the product, so without it there is none.
    have hnone := OrderBook.bidOf?_retractBid (oneEach (Stage.isBeforeHandout_of_isOpen isOpen))
      hfinds
    subst moves
    refine ⟨?_, ?_, fun hmem => ?_, rfl⟩
    · rw [hparticipation, hproduct]
      exact hfinds
    · unfold OrderBook.bidOf?
      rw [movedIf_bids, hparticipation, hproduct]
      exact hnone
    · rw [movedIf_bids] at hmem
      exact List.find?_eq_none.mp hnone bid hmem (Bid.isOf_iff.mpr ⟨hparticipation, hproduct⟩)
  | @readyToggled p _ isActive finds moves =>
    have hupdate := identified_update
      (fun q => { q with isReady := !(d.identified p).isReady }) (fun _ => rfl) finds
    subst moves
    refine ⟨⟨p, finds, ?_⟩, rfl⟩
    unfold OrderBook.participation? at hupdate ⊢
    rw [movedIf_participations]
    show (List.find? _ (d.book.updateParticipation _ _).participations).map _ = _
    rw [hupdate]
    rfl
  | @helperSet helper isHelper p leads isLive finds =>
    have hupdate := identified_update (fun q => { q with isHelper }) (fun _ => rfl) finds
    rw [← identified_id finds] at hupdate
    exact hupdate
  | @purchaseRecorded _ _ _ _ _ _ _ item isShopping mayShop reads finds =>
    have hproduct := OrderBook.product_of_itemFor? finds
    subst hproduct
    show OrderBook.itemFor? _ item.product = _
    exact OrderBook.itemFor?_updateItem finds fun _ _ => rfl
  | @purchaseUndone _ item isShopping mayShop finds wasBought =>
    have hproduct := OrderBook.product_of_itemFor? finds
    subst hproduct
    show OrderBook.itemFor? _ item.product = _
    exact OrderBook.itemFor?_updateItem finds fun _ hother => hother
  | pickedUp isDistributing mayShop finds hasGoods =>
    have hid := OrderBook.id_of_bid? finds
    subst hid
    unfold OrderBook.bid? at finds
    show List.find? (fun c : Bid => c.id = _) (updateFirst (fun c => c.id = _) _ _) = some _
    rw [find?_updateFirst_self fun _ _ => by simp, finds]
    rfl
  | _ => rfl

end Draft

/-! ## Handling a command -/

/-- Let a command be handled for any stored run, with any counters, at any time. If it succeeds, the
draft that it made of the stored book is what is stored now, one version on, no other run has
changed, and the reply agrees with it. If it fails, nothing is stored and no event goes out. -/
theorem handle_stores_draft {terms : Terms} {desk : Desk} {run : RunId} {book : OrderBook}
    (h : desk.Reachable terms) (finds : desk.repository.store.find? run = some book)
    (counters : Counters) (command : Command) (now : Instant) :
    match (Desk.handle terms run command now).on { desk with counters } with
    | (.ok reply, after) =>
      ∃ d, ((Draft.ofBook book counters now).execute terms.limits command).1 = .ok (d, reply) ∧
        after.repository.store.find? run = some d.book ∧
        d.book.run.version = book.run.version + 1 ∧
        (∀ other, other ≠ run →
          after.repository.store.find? other = desk.repository.store.find? other) ∧
        reply.AgreesWith command.user book d.book
    | (.error _, after) =>
      after.repository.store = desk.repository.store ∧ after.journal = desk.journal := by
  have hunraced : { desk with counters }.repository.IsUnraced := h.isUnraced
  rcases hhandle : (Desk.handle terms run command now).on { desk with counters } with
    ⟨why | reply, after⟩
  · have hkeeps := Desk.handle_error hunraced hhandle
    exact ⟨hkeeps.store, hkeeps.journal⟩
  · obtain ⟨found, d, hfound, houtcome, hstore, _⟩ := Desk.handle_ok hunraced hhandle
    have hsame : found = book := Option.some.inj (hfound.symm.trans finds)
    subst hsame
    have hid : d.book.run.id = run := houtcome.run_id.trans (Store.id_of_find? finds)
    have hexecute := Draft.execute_eq_ok_iff.mpr ⟨houtcome, rfl⟩
    have hconsistent := (h.book (Store.mem_of_find? finds)).isConsistent
    refine ⟨d, congrArg Prod.fst hexecute, ?_, houtcome.version, fun other hother => ?_,
      houtcome.agreesWith fun hstage => (hconsistent.waiting hstage).oneEach⟩
    · have hstored : desk.repository.store.find? d.book.run.id = some found := by
        rw [hid]
        exact finds
      rw [hstore, ← hid]
      exact Store.find?_replace_self hstored
    · rw [hstore]
      exact Store.find?_replace_of_ne (by rw [hid]; exact hother)

/-- When the leader cancels, only the move is written, and yet the whole draft is stored. -/
theorem handle_stores_draft_of_cancel :
    ∃ (book stored : OrderBook) (reply : Reply) (after : Desk),
      (Desk.opened.takeAll Desk.tripTerms Desk.tripTurns).repository.store.find? ⟨1⟩ = some book ∧
      (Desk.handle Desk.tripTerms ⟨1⟩ ⟨⟨1⟩, .cancel⟩ (.ofSeconds 60)).on
        (Desk.opened.takeAll Desk.tripTerms Desk.tripTurns) = (.ok reply, after) ∧
      after.repository.store.find? ⟨1⟩ = some stored ∧
      stored.run.version = book.run.version + 1 ∧ reply.AgreesWith ⟨1⟩ book stored := by
  have hfound : ((Desk.opened.takeAll Desk.tripTerms Desk.tripTurns).repository.store.find?
      ⟨1⟩).isSome = true := by decide +kernel
  have hanswered : ((Desk.handle Desk.tripTerms ⟨1⟩ ⟨⟨1⟩, .cancel⟩ (.ofSeconds 60)).on
      (Desk.opened.takeAll Desk.tripTerms Desk.tripTurns)).1.isOk = true := by decide +kernel
  generalize hdesk : Desk.opened.takeAll Desk.tripTerms Desk.tripTurns = desk at hfound hanswered ⊢
  obtain ⟨book, finds⟩ := Option.isSome_iff_exists.mp hfound
  have hstores := handle_stores_draft ⟨Desk.tripTurns, hdesk.symm⟩ finds desk.counters
    ⟨⟨1⟩, .cancel⟩ (.ofSeconds 60)
  rcases hhandle : (Desk.handle Desk.tripTerms ⟨1⟩ ⟨⟨1⟩, .cancel⟩ (.ofSeconds 60)).on desk with
    ⟨why | reply, after⟩
  · rw [hhandle] at hanswered
    cases hanswered
  · rw [show { desk with counters := desk.counters } = desk from rfl, hhandle] at hstores
    obtain ⟨d, _, hstored, hversion, _, hagrees⟩ := hstores
    exact ⟨book, d.book, reply, after, finds, rfl, hstored, hversion, hagrees⟩

end BuyingClub
