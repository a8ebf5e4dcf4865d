import BuyingClub.Proofs.Endings

/-!
# Collecting the goods

Every bid whose goods wait can be marked as collected, each mark leaves one less, and once none is
left the run can be completed.
-/

namespace BuyingClub

/-! ## What waits to be collected -/

theorem Bid.awaitsPickup_iff {b : Bid} :
    b.awaitsPickup = true ↔ b.isCommitted = true ∧ b.isPickedUp = false ∧
      ∃ quantity, b.distributedQuantity = some quantity ∧ 0 < quantity := by
  unfold awaitsPickup
  cases b.distributedQuantity <;> simp [and_assoc]

theorem Bid.awaitsPickup_pickedUp (b : Bid) :
    ({ b with isPickedUp := true } : Bid).awaitsPickup = false := by
  simp [awaitsPickup]

/-- The bids with goods that nobody has collected. -/
def uncollected (bids : List Bid) : List BidId := (bids.filter (·.awaitsPickup)).map (·.id)

theorem perm_uncollected_updateFirst {bids : List Bid} {id : BidId} {b picked : Bid}
    (finds : bids.find? (·.id = id) = some b) (waits : b.awaitsPickup = true)
    (done : picked.awaitsPickup = false) :
    (uncollected bids).Perm
      (id :: uncollected (updateFirst (·.id = id) (fun _ => picked) bids)) := by
  obtain ⟨before, later, rfl, _, hupdate, _⟩ := exists_append_of_find? finds
  have hid : b.id = id := by simpa using List.find?_some finds
  rw [hupdate]
  simp only [uncollected, List.filter_append, List.filter_cons, waits, done, if_true,
    List.map_append, List.map_cons, hid]
  exact List.perm_middle

namespace OrderBook

variable {limits : Limits} {book : OrderBook}

theorem length_uncollected (book : OrderBook) :
    (uncollected book.bids).length = book.outstandingPickups := by
  rw [uncollected, List.length_map, outstandingPickups, List.countP_eq_length_filter]

theorem find?_of_mem_uncollected {id : BidId} (distinct : (book.bids.map (·.id)).Nodup)
    (h : id ∈ uncollected book.bids) : ∃ b, book.bid? id = some b ∧ b.awaitsPickup = true := by
  obtain ⟨b, hb, rfl⟩ := List.mem_map.mp h
  obtain ⟨hmem, hwaits⟩ := List.mem_filter.mp hb
  exact ⟨b, find?_of_nodup distinct hmem, hwaits⟩

/-! ## Completed runs -/

theorem IsNew.outstandingPickups (h : book.IsNew) (completed : book.run.stage = .completed) :
    book.outstandingPickups = 0 := by
  obtain ⟨_, _, _, _, _, _, rfl⟩ := h
  cases completed

theorem Changes.outstandingPickups {later : OrderBook} (h : book.Changes limits later)
    (completed : later.run.stage = .completed) : later.outstandingPickups = 0 := by
  obtain ⟨_, _, _, _, d, reply, h, rfl⟩ := h
  have hfinal : reply.isFinal = true := by
    rw [h.isFinal_eq]
    exact Stage.isTerminal_iff.mpr (.inl completed)
  cases h with
  | completed leads isDistributing isDone => exact isDone
  | cancelled leads allowed => cases completed
  | _ => cases hfinal

end OrderBook

/-! ## The way to completion -/

namespace Draft

variable {d : Draft} {user : UserId}

theorem completeDistribution_of_pending (leads : d.book.leader?.any (·.user = user) = true)
    (isDistributing : d.stage = .distributing) (pending : 0 < d.book.outstandingPickups) :
    d.completeDistribution user = .error (.notPickedUp d.book.outstandingPickups) := by
  have hlive : d.stage.isTerminal = false := by
    rw [isDistributing]
    rfl
  have hmove : d.stage.canMove .completed = true := by
    rw [isDistributing]
    rfl
  have hleader : d.checkLeader user "complete distribution" = .ok () :=
    checkLeader_eq_ok_iff.mpr leads
  have hlive : d.checkLive = .ok () := checkLive_eq_ok_iff.mpr hlive
  have hmove : d.checkMove .completed = .ok () := Stage.checkMove_eq_ok_iff.mpr hmove
  unfold completeDistribution
  rw [hleader, hlive, hmove]
  simp only [pending, if_true]
  rfl

end Draft

/-- That goods are handed to whoever comes for them. -/
structure Collection where
  user : UserId
  bid : BidId
  now : Instant

namespace Collection

def command (c : Collection) : Command := ⟨c.user, .markPickedUp c.bid⟩

def turn (run : RunId) (c : Collection) : Desk.Turn := .handle run c.command c.now

/-- Whether someone may hand out goods of the run. -/
def IsAllowed (c : Collection) (terms : Terms) (book : OrderBook) : Prop :=
  (book.participationOf? c.user).any (·.mayShop) = true ∧
    terms.directory.isMember book.run.group c.user = true

end Collection

namespace Desk

variable {terms : Terms} {desk : Desk} {run : RunId} {book : OrderBook} {waiting : List BidId}

def IsUndisturbed (desk : Desk) : Prop :=
  desk.repository.isClosed = false ∧ desk.repository.disturbances = []

instance (desk : Desk) : Decidable desk.IsUndisturbed := inferInstanceAs (Decidable (_ ∧ _))

theorem IsUndisturbed.eq_ofStore (h : desk.IsUndisturbed) :
    desk = ⟨.ofStore desk.repository.store, desk.counters, desk.journal⟩ := by
  obtain ⟨⟨store, isClosed, disturbances⟩, counters, journal⟩ := desk
  obtain ⟨rfl, rfl⟩ := h
  rfl

/-- The run of this book is distributing, with the same participants, and the goods of the waiting
bids are still to be collected. -/
structure Serves (desk : Desk) (run : RunId) (book : OrderBook) (waiting : List BidId)
    (current : OrderBook) : Prop where
  undisturbed : desk.IsUndisturbed
  finds : desk.repository.store.find? run = some current
  distributing : current.run.stage = .distributing
  group : current.run.group = book.run.group
  participations : current.participations = book.participations
  distinct : (current.bids.map (·.id)).Nodup
  waits : (uncollected current.bids).Perm waiting

theorem find?_stored {store : Store} {limits : Limits} {counters : Counters} {now : Instant}
    {user : UserId} {action : Action} {d : Draft} {reply : Reply}
    (outcome : (Draft.ofBook book counters now).Outcome limits user action d reply)
    (finds : store.find? run = some book) : (store.replace d.book).find? run = some d.book := by
  obtain rfl : d.book.run.id = run := outcome.run_id.trans (Store.id_of_find? finds)
  exact Store.find?_replace_self finds

namespace Serves

variable {current : OrderBook}

theorem outstandingPickups (h : desk.Serves run book waiting current) :
    current.outstandingPickups = waiting.length := by
  rw [← OrderBook.length_uncollected, h.waits.length_eq]

theorem collect {c : Collection} (h : desk.Serves run book (c.bid :: waiting) current)
    (allowed : c.IsAllowed terms book) :
    (∃ b after, (handle terms run c.command c.now).on desk = (.ok (.pickedUp b), after)) ∧
      ∃ later, (desk.take terms (c.turn run)).Serves run book waiting later := by
  obtain ⟨b, hfinds, hwaits⟩ := OrderBook.find?_of_mem_uncollected h.distinct
    (h.waits.mem_iff.mpr List.mem_cons_self)
  obtain ⟨_, _, quantity, hquantity, _⟩ := Bid.awaitsPickup_iff.mp hwaits
  have hid : b.id = c.bid := OrderBook.id_of_bid? hfinds
  have hmayShop : (current.participationOf? c.user).any (·.mayShop) = true := by
    unfold OrderBook.participationOf?
    rw [h.participations]
    exact allowed.1
  have houtcome : (Draft.ofBook current desk.counters c.now).Outcome terms.limits c.user
      (.markPickedUp c.bid) ((Draft.ofBook current desk.counters c.now).pickedUp c.user b)
      (.pickedUp { b with isPickedUp := true }) :=
    .pickedUp h.distributing hmayShop hfinds (by rw [hquantity]; rfl)
  have hmember : terms.directory.isMember current.run.group c.command.user = true := by
    rw [h.group]
    exact allowed.2
  obtain ⟨after, hhandle, hrepository⟩ := handle_ofStore desk.journal h.finds hmember houtcome
  rw [← h.undisturbed.eq_ofStore] at hhandle
  have htake : desk.take terms (c.turn run) = after := congrArg Prod.snd hhandle
  refine ⟨⟨_, after, hhandle⟩,
    ((Draft.ofBook current desk.counters c.now).pickedUp c.user b).book, ?_⟩
  have hbids : ((Draft.ofBook current desk.counters c.now).pickedUp c.user b).book.bids =
      updateFirst (·.id = c.bid) (fun _ => { b with isPickedUp := true }) current.bids := by
    rw [← hid]
    rfl
  rw [htake]
  refine {
    undisturbed := by rw [IsUndisturbed, hrepository]; exact ⟨rfl, rfl⟩
    finds := by rw [hrepository]; exact find?_stored houtcome h.finds
    distributing := h.distributing
    group := h.group
    participations := h.participations
    distinct := ?_
    waits := ?_ }
  · rw [hbids, map_updateFirst_of_find? (·.id) hfinds rfl]
    exact h.distinct
  · have hperm := perm_uncollected_updateFirst hfinds hwaits b.awaitsPickup_pickedUp
    rw [hbids]
    exact (hperm.symm.trans h.waits).cons_inv

theorem collectAll {collections : List Collection}
    (h : desk.Serves run book (collections.map (·.bid) ++ waiting) current)
    (allowed : ∀ c ∈ collections, c.IsAllowed terms book) :
    ∃ later, (desk.takeAll terms (collections.map (·.turn run))).Serves run book waiting later := by
  induction collections generalizing desk current with
  | nil => exact ⟨current, h⟩
  | cons c rest ih =>
    obtain ⟨hc, hrest⟩ := List.forall_mem_cons.mp allowed
    obtain ⟨_, next, hnext⟩ := h.collect hc
    exact ih hnext hrest

theorem leads {leader : UserId} (h : desk.Serves run book waiting current)
    (leads : book.leader?.any (·.user = leader) = true) :
    current.leader?.any (·.user = leader) = true := by
  unfold OrderBook.leader?
  rw [h.participations]
  exact leads

theorem refuses_completion {leader : UserId} (h : desk.Serves run book waiting current)
    (leads : book.leader?.any (·.user = leader) = true)
    (isMember : terms.directory.isMember book.run.group leader = true) (pending : waiting ≠ [])
    (now : Instant) :
    ∃ after, (handle terms run ⟨leader, .completeDistribution⟩ now).on desk =
      (.error (.refused (.notPickedUp current.outstandingPickups)), after) := by
  have hpending : 0 < current.outstandingPickups := by
    rw [h.outstandingPickups]
    exact List.length_pos_iff.mpr pending
  have hrefuses : (Draft.ofBook current desk.counters now).completeDistribution leader =
      .error (.notPickedUp current.outstandingPickups) :=
    Draft.completeDistribution_of_pending (h.leads leads) h.distributing hpending
  have hexecute : (Draft.ofBook current desk.counters now).execute terms.limits
      ⟨leader, .completeDistribution⟩ =
        (.error (.notPickedUp current.outstandingPickups), desk.counters) := by
    simp only [Draft.execute, hrefuses]
    rfl
  obtain ⟨after, hhandle⟩ := handle_refused_ofStore desk.journal h.finds
    (by rw [h.group]; exact isMember) hexecute
  rw [← h.undisturbed.eq_ofStore] at hhandle
  exact ⟨after, hhandle⟩

theorem completes {leader : UserId} (h : desk.Serves run book [] current)
    (leads : book.leader?.any (·.user = leader) = true)
    (isMember : terms.directory.isMember book.run.group leader = true) (now : Instant) :
    ∃ ended after later, (handle terms run ⟨leader, .completeDistribution⟩ now).on desk =
        (.ok (.completed ended), after) ∧
      after.repository.store.find? run = some later ∧ later.run.stage = .completed := by
  have houtcome : (Draft.ofBook current desk.counters now).Outcome terms.limits leader
      .completeDistribution ((Draft.ofBook current desk.counters now).moved .completed)
      (.completed ((Draft.ofBook current desk.counters now).moved .completed).book.run) :=
    .completed (h.leads leads) h.distributing h.outstandingPickups
  have hmember : terms.directory.isMember current.run.group
      (Command.mk leader .completeDistribution).user = true := by
    rw [h.group]
    exact isMember
  obtain ⟨after, hhandle, hrepository⟩ := handle_ofStore desk.journal h.finds hmember houtcome
  rw [← h.undisturbed.eq_ofStore] at hhandle
  refine ⟨_, after, ((Draft.ofBook current desk.counters now).moved .completed).book, hhandle, ?_,
    rfl⟩
  rw [hrepository]
  exact find?_stored houtcome h.finds

end Serves

end Desk

/-- In a completed run, every committed bid with goods has been collected. While a run is
distributing, let those who may hand out its goods mark the bids that wait, in any order. Each mark
is made, before the last one the run cannot be completed, for as many bids as are left, and after it
the run can be. -/
theorem distribution_completes {steps : List (Terms × Desk.Turn)} {run : RunId} {book : OrderBook}
    (finds : (Desk.opened.takeEach steps).repository.store.find? run = some book) :
    (book.run.stage = .completed →
        ∀ b ∈ book.bids, b.isCommitted = true →
          ∀ quantity, b.distributedQuantity = some quantity → 0 < quantity →
            b.isPickedUp = true) ∧
      (book.run.stage = .distributing → Desk.opened.Lasts steps →
        (Desk.opened.takeEach steps).IsUndisturbed →
        ∀ (terms : Terms) (leader : UserId) (collections : List Collection),
          book.leader?.any (·.user = leader) = true →
          terms.directory.isMember book.run.group leader = true →
          (∀ c ∈ collections, (book.participationOf? c.user).any (·.mayShop) = true ∧
            terms.directory.isMember book.run.group c.user = true) →
          (collections.map (·.bid)).Perm ((book.bids.filter (·.awaitsPickup)).map (·.id)) →
          (∀ done c rest now, collections = done ++ c :: rest →
            (∃ b after, (Desk.handle terms run c.command c.now).on
              ((Desk.opened.takeEach steps).takeAll terms (done.map (·.turn run))) =
                (.ok (.pickedUp b), after)) ∧
            ∃ current after,
              ((Desk.opened.takeEach steps).takeAll terms
                (done.map (·.turn run))).repository.store.find? run = some current ∧
              current.outstandingPickups = rest.length + 1 ∧
              (Desk.handle terms run ⟨leader, .completeDistribution⟩ now).on
                ((Desk.opened.takeEach steps).takeAll terms (done.map (·.turn run))) =
                  (.error (.refused (.notPickedUp current.outstandingPickups)), after)) ∧
          ∀ now, ∃ ended after later,
            (Desk.handle terms run ⟨leader, .completeDistribution⟩ now).on
              ((Desk.opened.takeEach steps).takeAll terms (collections.map (·.turn run))) =
                (.ok (.completed ended), after) ∧
            after.repository.store.find? run = some later ∧ later.run.stage = .completed) := by
  constructor
  · intro completed b hb hcommitted quantity hquantity hpositive
    have hnone := Desk.takeEach_forall_books (Repository.isUnraced_ofStore _) nofun
      (fun book isNew => isNew.outstandingPickups)
      (fun _ _ _ _ changes => changes.outstandingPickups) steps book (Store.mem_of_find? finds)
      completed
    by_contra hleft
    rw [Bool.not_eq_true] at hleft
    have hwaits := Bid.awaitsPickup_iff.mpr ⟨hcommitted, hleft, quantity, hquantity, hpositive⟩
    exact List.countP_eq_zero.mp hnone b hb hwaits
  · intro distributing lasts undisturbed terms leader collections leads isMember allowed hperm
    have hcover := Desk.takeEach_cover (Repository.isUnraced_ofStore _) (.empty _) steps lasts
    have hdistinct : (book.bids.map (·.id)).Nodup :=
      (hcover.bids.each book (Store.mem_of_find? finds)).nodup
    have hserves : (Desk.opened.takeEach steps).Serves run book (collections.map (·.bid)) book :=
      ⟨undisturbed, finds, distributing, rfl, rfl, hdistinct, hperm.symm⟩
    refine ⟨?_, fun now => ?_⟩
    · rintro done c rest now rfl
      obtain ⟨hdone, hrest⟩ := List.forall_mem_append.mp allowed
      obtain ⟨hc, _⟩ := List.forall_mem_cons.mp hrest
      rw [List.map_append, List.map_cons] at hserves
      obtain ⟨current, hcurrent⟩ := hserves.collectAll hdone
      obtain ⟨after, hrefuses⟩ := hcurrent.refuses_completion leads isMember
        (List.cons_ne_nil _ _) now
      refine ⟨(hcurrent.collect hc).1, current, after, hcurrent.finds, ?_, hrefuses⟩
      rw [hcurrent.outstandingPickups, List.length_cons, List.length_map]
    · have hall : (Desk.opened.takeEach steps).Serves run book
          (collections.map (·.bid) ++ []) book := by
        rw [List.append_nil]
        exact hserves
      obtain ⟨current, hcurrent⟩ := hall.collectAll allowed
      exact hcurrent.completes leads isMember now

namespace Desk

/-- The trip of two, with what there is handed out and the second one as a helper. -/
def distributingSteps : List (Terms × Turn) :=
  (tripTurns ++ [tripTurn 1 (.finishAdjusting true), tripTurn 1 (.setHelper ⟨2⟩ true)]).map
    (tripTerms, ·)

end Desk

/-- The helper hands the leader's goods out first. One bid is left then, and after it none. -/
theorem distribution_completes_in_trip :
    (∃ after, (Desk.handle Desk.tripTerms ⟨1⟩ ⟨⟨1⟩, .completeDistribution⟩ (.ofSeconds 60)).on
        ((Desk.opened.takeEach Desk.distributingSteps).takeAll Desk.tripTerms
          [Desk.tripTurn 2 (.markPickedUp ⟨1⟩)]) = (.error (.refused (.notPickedUp 1)), after)) ∧
      ∃ ended after later,
        (Desk.handle Desk.tripTerms ⟨1⟩ ⟨⟨1⟩, .completeDistribution⟩ (.ofSeconds 60)).on
          ((Desk.opened.takeEach Desk.distributingSteps).takeAll Desk.tripTerms
            [Desk.tripTurn 2 (.markPickedUp ⟨1⟩), Desk.tripTurn 1 (.markPickedUp ⟨2⟩)]) =
              (.ok (.completed ended), after) ∧
          after.repository.store.find? ⟨1⟩ = some later ∧ later.run.stage = .completed := by
  let collections : List Collection :=
    [⟨⟨2⟩, ⟨1⟩, .ofSeconds 0⟩, ⟨⟨1⟩, ⟨2⟩, .ofSeconds 0⟩]
  have hbook : ((Desk.opened.takeEach Desk.distributingSteps).repository.store.find? ⟨1⟩).any
      (fun b => b.run.stage = .distributing ∧ b.leader?.any (·.user = ⟨1⟩) = true ∧
        Desk.tripTerms.directory.isMember b.run.group ⟨1⟩ = true ∧
        (∀ c ∈ collections, (b.participationOf? c.user).any (·.mayShop) = true ∧
          Desk.tripTerms.directory.isMember b.run.group c.user = true) ∧
        (b.bids.filter (·.awaitsPickup)).map (·.id) = [⟨1⟩, ⟨2⟩]) = true := by
    decide +kernel
  obtain ⟨book, finds, hbook⟩ := (Option.any_eq_true _ _).mp hbook
  obtain ⟨distributing, leads, isMember, allowed, hwaits⟩ := of_decide_eq_true hbook
  have hperm : (collections.map (·.bid)).Perm
      ((book.bids.filter (·.awaitsPickup)).map (·.id)) := by
    rw [hwaits]
    exact .refl _
  obtain ⟨hmarks, hcompletes⟩ := (distribution_completes finds).2 distributing (by decide +kernel)
    (by decide +kernel) Desk.tripTerms ⟨1⟩ collections leads isMember allowed hperm
  obtain ⟨_, current, after, _, hcount, hrefuses⟩ :=
    hmarks [⟨⟨2⟩, ⟨1⟩, .ofSeconds 0⟩] ⟨⟨1⟩, ⟨2⟩, .ofSeconds 0⟩ [] (.ofSeconds 60) rfl
  rw [hcount] at hrefuses
  exact ⟨⟨after, hrefuses⟩, hcompletes (.ofSeconds 60)⟩

end BuyingClub
