import BuyingClub.Proofs.History
import BuyingClub.Proofs.Integrity

/-!
# The journal

A command that is stored gives out what it did and then its move, if it made one, and one that fails
gives out nothing. So the moves that were given out for a run are those of its history.
-/

namespace BuyingClub

/-! ## What commands give out -/

/-- Whether commands of this kind tell more than the move they make. -/
def Action.isAnnounced : Action → Bool
  | .placeBid .. | .retractBid _ | .toggleReady | .setHelper .. | .recordPurchase ..
  | .undoPurchase _ | .markPickedUp _ => true
  | .forceConfirm | .startShopping | .completeShopping | .finishAdjusting _
  | .completeDistribution | .cancel => false

/-- What a command tells of itself, given the book before. -/
def Command.announcement? (command : Command) (book : OrderBook) : Option Happening :=
  match command.action with
  | .placeBid product _ _ _ => some (.bidPlaced command.user product)
  | .retractBid product => some (.bidRetracted command.user product)
  | .toggleReady => some (.readyToggled command.user)
  | .setHelper helper _ => some (.helperChanged helper)
  | .recordPurchase product _ _ _ => some (.purchaseRecorded command.user product)
  | .undoPurchase product => some (.purchaseUndone command.user product)
  | .markPickedUp bid => (book.bid? bid).map fun b => .bidPickedUp command.user b.product
  | .forceConfirm | .startShopping | .completeShopping | .finishAdjusting _
  | .completeDistribution | .cancel => none

/-- What is told of the stages before and after a command: nothing, unless they differ. -/
def Happening.ofStages (old new : Stage) : List Happening :=
  if new = old then [] else [.stageChanged old new]

theorem Happening.ofStages_self (stage : Stage) : ofStages stage stage = [] := if_pos rfl

theorem Happening.ofStages_of_canMove {old new : Stage} (allowed : old.canMove new = true) :
    ofStages old new = [.stageChanged old new] :=
  if_neg (Stage.ne_of_canMove allowed)

namespace Draft

variable {limits : Limits} {d after changed : Draft} {user : UserId} {action : Action}
  {reply : Reply} {own : Option Happening}

/-- The later draft gives out what was done and then the change of stage. -/
def Tells (d : Draft) (own : Option Happening) (after : Draft) : Prop :=
  after.events = d.events ++
    (own.toList ++ Happening.ofStages d.stage after.stage).map fun happening =>
      .ofRun d.book.run happening d.now

theorem Tells.of_stays
    (events : changed.events = d.events ++
      own.toList.map fun happening => .ofRun d.book.run happening d.now)
    (stays : changed.stage = d.stage) : d.Tells own changed := by
  unfold Tells
  rw [stays, Happening.ofStages_self, List.append_nil]
  exact events

theorem Tells.movedIf {c : Bool} {new : Stage} (h : d.Tells own changed)
    (stays : changed.stage = d.stage)
    (sameRun : ∀ happening, Event.ofRun changed.book.run happening changed.now =
      .ofRun d.book.run happening d.now)
    (allowed : c = true → d.stage.canMove new = true) : d.Tells own (changed.movedIf c new) := by
  cases c with
  | false => exact h
  | true =>
    have hmoved : (changed.movedIf true new).events = changed.events ++
        [.ofRun changed.book.run (.stageChanged changed.stage new) changed.now] := rfl
    unfold Tells at h ⊢
    rw [stays, Happening.ofStages_self, List.append_nil] at h
    rw [hmoved, h, sameRun, stays, movedIf_stage, if_pos rfl,
      Happening.ofStages_of_canMove (allowed rfl), List.map_append, List.append_assoc]
    rfl

theorem tells_moved {new : Stage} (events : changed.events = d.events)
    (stays : changed.stage = d.stage)
    (sameRun : ∀ happening, Event.ofRun changed.book.run happening changed.now =
      .ofRun d.book.run happening d.now)
    (allowed : d.stage.canMove new = true) : d.Tells none (changed.moved new) := by
  have hstays : d.Tells none changed := by
    apply Tells.of_stays _ stays
    rw [events]
    simp
  exact hstays.movedIf (c := true) stays sameRun fun _ => allowed

theorem tells_movedWith {book : OrderBook} {counters : Counters} {new : Stage}
    (run : book.run = d.book.run) (allowed : d.stage.canMove new = true) :
    d.Tells none (d.movedWith book counters new) := by
  have hstage : book.run.stage = d.stage := congrArg Run.stage run
  refine tells_moved rfl hstage (fun happening => ?_) allowed
  rw [← run]
  rfl

theorem Outcome.tells (h : d.Outcome limits user action after reply) :
    d.Tells (Command.announcement? ⟨user, action⟩ d.book) after := by
  cases h with
  | @bidPlaced product _ _ _ _ _ admitted _ placed admits fits places moves =>
    subst moves
    have hstage : (admitted.bidPlaced user product placed).stage = d.stage :=
      stage_bidPlaced admits places
    have hsame (happening : Happening) : Event.ofRun placed.book.run happening admitted.now =
        .ofRun d.book.run happening d.now := by
      rw [(admits.frame_placed places).1, admits.frame.2.2.2.2]
    have hevents : admitted.events = d.events := by cases admits <;> rfl
    refine Tells.movedIf (.of_stays ?_ hstage) hstage hsame fun hc => ?_
    · show admitted.events ++ [Event.ofRun placed.book.run _ admitted.now] = _
      rw [hevents, hsame]
      rfl
    · simp only [Bool.and_eq_true, decide_eq_true_eq] at hc
      rw [hc.1]
      rfl
  | bidRetracted isOpen finds fits retracts moves =>
    obtain ⟨_, rfl⟩ := OrderBook.retractBid_eq_ok_iff.mp retracts
    subst moves
    refine Tells.movedIf (.of_stays rfl rfl) rfl (fun _ => rfl) fun hc => ?_
    simp only [Bool.and_eq_true, decide_eq_true_eq] at hc
    rw [hc.1]
    rfl
  | readyToggled isActive finds moves =>
    subst moves
    refine Tells.movedIf (.of_stays rfl rfl) rfl (fun _ => rfl) fun _ => ?_
    rw [isActive]
    rfl
  | helperSet leads isLive finds => exact Tells.of_stays rfl rfl
  | confirmed leads allowed => exact tells_moved rfl rfl (fun _ => rfl) allowed
  | shoppingStarted leads allowed drawsUp =>
    obtain ⟨_, rfl, _⟩ := OrderBook.drawUpList_eq_ok_iff.mp drawsUp
    exact tells_movedWith rfl allowed
  | purchaseRecorded isShopping mayShop reads finds =>
    obtain rfl := OrderBook.product_of_itemFor? finds
    exact Tells.of_stays rfl rfl
  | purchaseUndone isShopping mayShop finds wasBought => exact Tells.of_stays rfl rfl
  | shoppingBalanced leads allowed balanced handsOut =>
    exact tells_movedWith (OrderBook.handOut_run handsOut) allowed
  | shoppingUnbalanced leads isShopping unbalanced =>
    exact tells_moved rfl rfl (fun _ => rfl) (by rw [isShopping]; rfl)
  | adjustingFinished leads isAdjusting balanced handsOut =>
    exact tells_movedWith (OrderBook.handOut_run handsOut) (by rw [isAdjusting]; rfl)
  | pickedUp isDistributing mayShop finds hasGoods =>
    refine Tells.of_stays ?_ rfl
    simp only [Command.announcement?, finds]
    rfl
  | completed leads isDistributing isDone =>
    exact tells_moved rfl rfl (fun _ => rfl) (by rw [isDistributing]; rfl)
  | cancelled leads allowed => exact tells_moved rfl rfl (fun _ => rfl) allowed

end Draft

/-! ## Histories as moves -/

theorem zip_tail_concat {α : Type} {xs : List α} {last : α} (h : xs.getLast? = some last)
    (new : α) : (xs ++ [new]).zip (xs ++ [new]).tail = xs.zip xs.tail ++ [(last, new)] := by
  induction xs with
  | nil => cases h
  | cons x rest ih =>
    cases rest with
    | nil =>
      cases h
      rfl
    | cons y rest =>
      rw [List.getLast?_cons_cons] at h
      exact congrArg (List.cons (x, y)) (ih h)

def Run.stageMoves (run : Run) : List (Stage × Stage) :=
  (run.history.map (·.stage)).zip (run.history.map (·.stage)).tail

theorem Run.HasSoundHistory.stageMoves_enter {run : Run} (h : run.HasSoundHistory) (new : Stage)
    (now : Instant) : (run.enter new now).stageMoves = run.stageMoves ++ [(run.stage, new)] := by
  have hlast : (run.history.map (·.stage)).getLast? = some run.stage := by
    rw [List.getLast?_map]
    exact h.ends
  unfold stageMoves Run.enter
  rw [List.map_append]
  exact zip_tail_concat hlast new

theorem Draft.Follows.stageMoves {d : Draft} {run : Run} (h : d.Follows run)
    (before : d.book.run.HasSoundHistory) :
    run.stageMoves = d.book.run.stageMoves ++
      (Happening.ofStages d.stage run.stage).filterMap (·.stages?) := by
  cases h with
  | stays =>
    have hnone : Happening.ofStages d.stage d.book.run.stage = [] := Happening.ofStages_self _
    rw [hnone, List.filterMap_nil, List.append_nil]
    rfl
  | @moves new allowed =>
    have hmove : Happening.ofStages d.stage new = [.stageChanged d.stage new] :=
      Happening.ofStages_of_canMove allowed
    show (d.book.run.enter new d.now).stageMoves =
      d.book.run.stageMoves ++ (Happening.ofStages d.stage new).filterMap (·.stages?)
    rw [before.stageMoves_enter, hmove]
    rfl

/-! ## The journal of a desk -/

/-- The moves that the events tell of a run. -/
def movesTold (journal : List Event) (run : RunId) : List (Stage × Stage) :=
  (journal.filter (·.run = run)).filterMap (·.happening.stages?)

theorem movesTold_append (journal events : List Event) (run : RunId) :
    movesTold (journal ++ events) run = movesTold journal run ++ movesTold events run := by
  unfold movesTold
  rw [List.filter_append, List.filterMap_append]

theorem movesTold_eq_nil {events : List Event} (h : ∀ e ∈ events, e.happening.stages? = none)
    (run : RunId) : movesTold events run = [] := by
  unfold movesTold
  rw [List.filterMap_eq_nil_iff]
  intro e he
  exact h e (List.mem_filter.mp he).1

@[simp] theorem Event.run_nameStore (storeName : Option String) (e : Event) :
    (e.nameStore storeName).run = e.run := by
  unfold nameStore
  split <;> rfl

@[simp] theorem Event.happening_nameStore (storeName : Option String) (e : Event) :
    (e.nameStore storeName).happening = e.happening := by
  unfold nameStore
  split <;> rfl

/-- The events of a draft as they are given out. -/
def toldOf (run : Run) (happenings : List Happening) (now : Instant) (storeName : Option String) :
    List Event :=
  (happenings.map (Event.ofRun run · now)).map (·.nameStore storeName)

theorem movesTold_toldOf (run : Run) (happenings : List Happening) (now : Instant)
    (storeName : Option String) (other : RunId) :
    movesTold (toldOf run happenings now storeName) other =
      if run.id = other then happenings.filterMap (·.stages?) else [] := by
  unfold movesTold toldOf
  by_cases hrun : run.id = other
  · have hall : ∀ e ∈ (happenings.map (Event.ofRun run · now)).map (·.nameStore storeName),
        decide (e.run = other) = true := by
      simp [Event.ofRun, hrun]
    rw [if_pos hrun, List.filter_eq_self.mpr hall, List.filterMap_map, List.filterMap_map]
    simp [Function.comp_def, Event.ofRun]
  · have hnone : ∀ e ∈ (happenings.map (Event.ofRun run · now)).map (·.nameStore storeName),
        ¬ decide (e.run = other) = true := by
      simp [Event.ofRun, hrun]
    rw [if_neg hrun, List.filter_eq_nil_iff.mpr hnone]
    rfl

theorem map_happening_toldOf (run : Run) (happenings : List Happening) (now : Instant)
    (storeName : Option String) :
    (toldOf run happenings now storeName).map (·.happening) = happenings := by
  unfold toldOf
  rw [List.map_map, List.map_map]
  simp [Function.comp_def, Event.ofRun]

theorem run_of_mem_toldOf {run : Run} {happenings : List Happening} {now : Instant}
    {storeName : Option String} {e : Event} (h : e ∈ toldOf run happenings now storeName) :
    e.run = run.id := by
  obtain ⟨told, htold, rfl⟩ := List.mem_map.mp h
  obtain ⟨happening, _, rfl⟩ := List.mem_map.mp htold
  rw [Event.run_nameStore]
  rfl

theorem Command.stages?_announcement {command : Command} {book : OrderBook} :
    (command.announcement? book).toList.filterMap (·.stages?) = [] := by
  obtain ⟨user, action⟩ := command
  cases action with
  | markPickedUp bid =>
    show ((book.bid? bid).map fun b => Happening.bidPickedUp user b.product).toList.filterMap
      (·.stages?) = []
    cases book.bid? bid <;> rfl
  | _ => rfl

theorem Draft.Outcome.isSome_announcement {limits : Limits} {d after : Draft} {user : UserId}
    {action : Action} {reply : Reply} (h : d.Outcome limits user action after reply) :
    (Command.announcement? ⟨user, action⟩ d.book).isSome = action.isAnnounced := by
  cases h with
  | @pickedUp bid b isDistributing mayShop finds hasGoods =>
    show ((d.book.bid? bid).map fun b => Happening.bidPickedUp user b.product).isSome = true
    rw [finds]
    rfl
  | _ => rfl

theorem Draft.Outcome.told {limits : Limits} {book : OrderBook} {counters : Counters}
    {now : Instant} {user : UserId} {action : Action} {d : Draft} {reply : Reply}
    (h : (Draft.ofBook book counters now).Outcome limits user action d reply)
    (storeName : Option String) :
    d.events.map (·.nameStore storeName) =
      toldOf book.run ((Command.announcement? ⟨user, action⟩ book).toList ++
        Happening.ofStages book.run.stage d.book.run.stage) now storeName := by
  have htells := h.tells
  unfold Tells at htells
  rw [htells]
  rfl

/-- The journal tells just the moves that the stored histories tell. -/
structure Store.IsToldBy (store : Store) (journal : List Event) : Prop where
  sound : ∀ book ∈ store.books, book.run.HasSoundHistory
  told : ∀ run, movesTold journal run = ((store.find? run).map (·.run.stageMoves)).getD []

namespace Store.IsToldBy

variable {store : Store} {journal : List Event} {book : OrderBook}

theorem create {event : Event} (h : store.IsToldBy journal)
    (fresh : store.find? book.run.id = none) (isNew : book.IsNew)
    (noMove : event.happening.stages? = none) :
    IsToldBy ⟨store.books ++ [book]⟩ (journal ++ [event]) := by
  have hsound : book.run.HasSoundHistory ∧ book.run.stageMoves = [] := by
    obtain ⟨_, _, _, _, _, _, rfl⟩ := isNew
    exact ⟨Run.hasSoundHistory_start .., rfl⟩
  refine ⟨fun found hfound => ?_, fun run => ?_⟩
  · rcases List.mem_append.mp hfound with hfound | hfound
    · exact h.sound found hfound
    · rw [List.mem_singleton.mp hfound]
      exact hsound.1
  · have hnone : movesTold [event] run = [] := by
      apply movesTold_eq_nil
      intro e he
      rw [List.mem_singleton.mp he]
      exact noMove
    rw [movesTold_append, hnone, List.append_nil, h.told]
    by_cases hrun : run = book.run.id
    · subst hrun
      rw [fresh, Store.find?_append_self fresh, Option.map_some, hsound.2]
      rfl
    · rw [Store.find?_append_of_ne hrun]

theorem handle {limits : Limits} {run : RunId} {counters : Counters} {now : Instant} {user : UserId}
    {action : Action} {d : Draft} {reply : Reply} (h : store.IsToldBy journal)
    (finds : store.find? run = some book)
    (outcome : (Draft.ofBook book counters now).Outcome limits user action d reply)
    (storeName : Option String) :
    (store.replace d.book).IsToldBy (journal ++ d.events.map (·.nameStore storeName)) := by
  obtain rfl : d.book.run.id = run := outcome.run_id.trans (Store.id_of_find? finds)
  have hid : book.run.id = d.book.run.id := outcome.run_id.symm
  have hsound := h.sound book (Store.mem_of_find? finds)
  refine ⟨fun found hfound => ?_, fun other => ?_⟩
  · rcases Store.mem_replace hfound with hfound | rfl
    · exact h.sound found hfound
    · exact outcome.follows.hasSoundHistory hsound
  · rw [outcome.told, movesTold_append, movesTold_toldOf, List.filterMap_append,
      Command.stages?_announcement, List.nil_append, h.told]
    by_cases hrun : other = d.book.run.id
    · subst hrun
      rw [if_pos hid, finds, Store.find?_replace_self finds]
      exact (outcome.follows.stageMoves hsound).symm
    · have hother : book.run.id ≠ other := by
        rw [hid]
        exact Ne.symm hrun
      rw [if_neg hother, Store.find?_replace_of_ne hrun, List.append_nil]

end Store.IsToldBy

namespace Desk

variable {terms : Terms} {desk after : Desk} {turn : Turn}

theorem Took.isToldBy (h : desk.Took terms turn after)
    (before : desk.repository.store.IsToldBy desk.journal) :
    after.repository.store.IsToldBy after.journal := by
  cases h with
  | created fresh stores counts gives =>
    rw [stores, gives]
    exact before.create fresh (isNew_newBook ..) rfl
  | handled finds outcome serves stores counts gives =>
    rw [stores, gives]
    exact before.handle finds outcome _
  | resumed stores counts gives =>
    rw [stores, gives]
    exact before
  | kept stores serves counts gives =>
    rw [stores, gives]
    exact before

theorem takeEach_isToldBy (unraced : desk.repository.IsUnraced)
    (before : desk.repository.store.IsToldBy desk.journal) (steps : List (Terms × Turn)) :
    (desk.takeEach steps).repository.store.IsToldBy (desk.takeEach steps).journal := by
  induction steps generalizing desk with
  | nil => exact before
  | cons step rest ih =>
    obtain ⟨terms, turn⟩ := step
    obtain ⟨hunraced, htook⟩ := take_took terms unraced turn
    exact ih hunraced (htook.isToldBy before)

end Desk

/-- However requests to the repository fail, the moves that were given out for a stored run are just
those of its history. A command that fails gives nothing out. One that succeeds gives out what it
did, if its kind is announced, and then the change of stage, if there is one. -/
theorem journal_faithful (steps : List (Terms × Desk.Turn)) :
    (∀ run book, (Desk.opened.takeEach steps).repository.store.find? run = some book →
        movesTold (Desk.opened.takeEach steps).journal run = book.run.stageMoves) ∧
      (∀ terms run command now why after,
        (Desk.handle terms run command now).on (Desk.opened.takeEach steps) = (.error why, after) →
          after.journal = (Desk.opened.takeEach steps).journal) ∧
      ∀ terms run command now reply after,
        (Desk.handle terms run command now).on (Desk.opened.takeEach steps) = (.ok reply, after) →
          ∃ book later told,
            (Desk.opened.takeEach steps).repository.store.find? run = some book ∧
              after.repository.store.find? run = some later ∧
              after.journal = (Desk.opened.takeEach steps).journal ++ told ∧
              (∀ e ∈ told, e.run = run) ∧
              told.map (·.happening) = (command.announcement? book).toList ++
                Happening.ofStages book.run.stage later.run.stage ∧
              (command.announcement? book).isSome = command.action.isAnnounced := by
  have hunraced : (Desk.opened.takeEach steps).repository.IsUnraced :=
    Desk.takeEach_unraced (Repository.isUnraced_ofStore _) steps
  have hopened : Desk.opened.repository.store.IsToldBy Desk.opened.journal :=
    ⟨nofun, fun _ => rfl⟩
  have htold := Desk.takeEach_isToldBy (Repository.isUnraced_ofStore _) hopened steps
  refine ⟨?_, ?_, ?_⟩
  · intro run book finds
    rw [htold.told, finds]
    rfl
  · intro terms run command now why after hhandle
    exact (Desk.handle_error hunraced hhandle).journal
  · intro terms run command now reply after hhandle
    obtain ⟨book, d, hhandled⟩ := Desk.handle_ok hunraced hhandle
    obtain rfl : d.book.run.id = run :=
      hhandled.outcome.run_id.trans (Store.id_of_find? hhandled.finds)
    have hgives := hhandled.gives
    rw [hhandled.outcome.told] at hgives
    refine ⟨book, d.book, _, hhandled.finds, ?_, hgives, fun e he => ?_, map_happening_toldOf ..,
      hhandled.outcome.isSome_announcement⟩
    · rw [hhandled.stores]
      exact Store.find?_replace_self hhandled.finds
    · exact (run_of_mem_toldOf he).trans hhandled.outcome.run_id.symm

namespace Desk

/-- The trip of two, after which commits are refused. -/
def refusedSteps : List (Terms × Turn) :=
  tripTurns.map (tripTerms, ·) ++
    [(tripTerms, .disturb false [⟨.commit, .unavailable "disk full", none⟩] (by simp))]

end Desk

/-- Four moves were given out on the trip. A bid that cannot be stored is not given out. -/
theorem journal_faithful_when_refused :
    movesTold (Desk.opened.takeEach Desk.refusedSteps).journal ⟨1⟩ =
        [(.planning, .active), (.active, .confirmed), (.confirmed, .shopping),
          (.shopping, .adjusting)] ∧
      ∃ why after,
        (Desk.handle Desk.tripTerms ⟨1⟩ ⟨⟨2⟩, .placeBid ⟨1⟩ (.ofInt 3) false none⟩
          (.ofSeconds 60)).on (Desk.opened.takeEach Desk.refusedSteps) = (.error why, after) ∧
        after.journal = (Desk.opened.takeEach Desk.refusedSteps).journal := by
  obtain ⟨htold, hfailed, _⟩ := journal_faithful Desk.refusedSteps
  refine ⟨?_, ?_⟩
  · have hbook : ((Desk.opened.takeEach Desk.refusedSteps).repository.store.find? ⟨1⟩).any
        (fun b => b.run.stageMoves = [(.planning, .active), (.active, .confirmed),
          (.confirmed, .shopping), (.shopping, .adjusting)]) = true := by
      decide +kernel
    obtain ⟨book, finds, hmoves⟩ := (Option.any_eq_true _ _).mp hbook
    exact (htold ⟨1⟩ book finds).trans (of_decide_eq_true hmoves)
  · have hrefused : ((Desk.handle Desk.tripTerms ⟨1⟩ ⟨⟨2⟩, .placeBid ⟨1⟩ (.ofInt 3) false none⟩
        (.ofSeconds 60)).on (Desk.opened.takeEach Desk.refusedSteps)).1.isOk = false := by
      decide +kernel
    rcases hhandle : (Desk.handle Desk.tripTerms ⟨1⟩ ⟨⟨2⟩, .placeBid ⟨1⟩ (.ofInt 3) false none⟩
      (.ofSeconds 60)).on (Desk.opened.takeEach Desk.refusedSteps) with ⟨why | reply, after⟩
    · exact ⟨why, after, rfl, hfailed _ _ _ _ _ _ hhandle⟩
    · rw [hhandle] at hrefused
      cases hrefused

end BuyingClub
