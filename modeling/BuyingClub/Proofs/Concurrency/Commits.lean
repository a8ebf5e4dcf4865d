import BuyingClub.Proofs.Concurrency.SharedDesk

/-!
# What commits do when writers overtake each other

A draft that is stored as a whole was made of the book that it replaces, and so was any draft of a
run that nobody else has written since. Such a command might as well have been handled at the moment
of its commit. Of other drafts only the move is stored, in the book as it is by then. So the outcome
is that of the commands one after the other exactly if none of them misses what others have stored.
-/

namespace BuyingClub

theorem Stage.isTerminal_of_canMove_distributing {new : Stage}
    (h : Stage.distributing.canMove new = true) : new.isTerminal = true := by
  cases new <;> simp_all [canMove, next, isTerminal]

/-! ## What writers make of a book -/

/-- The book after nothing but a move. -/
def OrderBook.moved (book : OrderBook) (new : Stage) (now : Instant) : OrderBook :=
  { book with run := { book.run.enter new now with version := book.run.version + 1 } }

/-- What a commit can make of a book, whoever makes it. -/
inductive OrderBook.Leads (book : OrderBook) : OrderBook → Prop
  | changes {limits : Limits} {after : OrderBook} (h : book.Changes limits after) : Leads book after
  | moves {new : Stage} {now : Instant} (allowed : book.run.stage.canMove new = true) :
      Leads book (book.moved new now)

namespace OrderBook

variable {book after later : OrderBook}

theorem Leads.run_cases (h : book.Leads after) :
    after.run = { book.run with version := book.run.version + 1 } ∨
      ∃ new now, book.run.stage.canMove new = true ∧
        after.run = { book.run.enter new now with version := book.run.version + 1 } := by
  cases h with
  | changes h =>
    obtain ⟨counters, now, user, action, d, reply, houtcome, rfl⟩ := h
    have hfollows := houtcome.follows
    generalize d.book.run = run at hfollows ⊢
    cases hfollows with
    | stays => exact .inl rfl
    | @moves new allowed => exact .inr ⟨new, now, allowed, rfl⟩
  | @moves new now allowed => exact .inr ⟨new, now, allowed, rfl⟩

/-- What a run never loses. -/
structure SameRun (book after : OrderBook) : Prop where
  id : after.run.id = book.run.id
  group : after.run.group = book.run.group
  store : after.run.store = book.run.store
  leader : ∀ user, after.leader?.any (·.user = user) = book.leader?.any (·.user = user)

theorem Leads.sameRun (h : book.Leads after) : book.SameRun after := by
  have hleader : ∀ user,
      after.leader?.any (·.user = user) = book.leader?.any (·.user = user) := by
    cases h with
    | changes h =>
      obtain ⟨counters, now, user, action, d, reply, houtcome, rfl⟩ := h
      exact houtcome.leader?_any
    | moves allowed => exact fun _ => rfl
  rcases h.run_cases with hrun | ⟨new, now, _, hrun⟩
  · exact ⟨by rw [hrun], by rw [hrun], by rw [hrun], hleader⟩
  · exact ⟨by rw [hrun]; rfl, by rw [hrun]; rfl, by rw [hrun]; rfl, hleader⟩

theorem Leads.version (h : book.Leads after) : after.run.version = book.run.version + 1 := by
  rcases h.run_cases with hrun | ⟨new, now, _, hrun⟩ <;> rw [hrun]

theorem Leads.stage_cases (h : book.Leads after) :
    after.run.stage = book.run.stage ∨ book.run.stage.canMove after.run.stage = true := by
  rcases h.run_cases with hrun | ⟨new, now, allowed, hrun⟩ <;> rw [hrun]
  · exact .inl rfl
  · exact .inr allowed

/-- Books that commits of any number of writers lead to. -/
abbrev LeadsOn : OrderBook → OrderBook → Prop := Relation.ReflTransGen Leads

theorem LeadsOn.sameRun (h : book.LeadsOn later) : book.SameRun later := by
  induction h with
  | refl => exact ⟨rfl, rfl, rfl, fun _ => rfl⟩
  | tail _ hstep ih =>
    have hnext := hstep.sameRun
    exact ⟨hnext.id.trans ih.id, hnext.group.trans ih.group, hnext.store.trans ih.store,
      fun user => (hnext.leader user).trans (ih.leader user)⟩

theorem LeadsOn.eq_or_lt (h : book.LeadsOn later) :
    later = book ∨ book.run.version < later.run.version := by
  induction h with
  | refl => exact .inl rfl
  | tail _ hstep ih =>
    have hversion := hstep.version
    rcases ih with rfl | hlt
    · exact .inr (by omega)
    · exact .inr (by omega)

theorem LeadsOn.stage_of_isTerminal (h : book.LeadsOn later)
    (ended : book.run.stage.isTerminal = true) : later.run.stage = book.run.stage := by
  induction h with
  | refl => rfl
  | tail _ hstep ih =>
    rcases hstep.stage_cases with hsame | hmove
    · exact hsame.trans ih
    · rw [ih] at hmove
      rw [Stage.isTerminal_of_canMove hmove] at ended
      cases ended

theorem Leads.outstandingPickups (h : book.Leads after)
    (distributing : book.run.stage = .distributing) (stays : after.run.stage = .distributing)
    (none : book.outstandingPickups = 0) : after.outstandingPickups = 0 := by
  cases h with
  | @moves new now allowed =>
    exact none
  | changes h =>
    obtain ⟨counters, now, user, action, d, reply, houtcome, rfl⟩ := h
    have hstage : (Draft.ofBook book counters now).stage = .distributing := distributing
    cases houtcome with
    | bidPlaced admits fits places moves =>
      have hopen := admits.isOpen
      rw [hstage] at hopen
      cases hopen
    | bidRetracted isOpen finds fits retracts moves =>
      rw [hstage] at isOpen
      cases isOpen
    | readyToggled isActive finds moves =>
      rw [hstage] at isActive
      cases isActive
    | helperSet leads isLive finds => exact none
    | purchaseRecorded isShopping mayShop reads finds =>
      rw [hstage] at isShopping
      cases isShopping
    | purchaseUndone isShopping mayShop finds wasBought =>
      rw [hstage] at isShopping
      cases isShopping
    | shoppingBalanced leads allowed balanced handsOut =>
      rw [hstage] at allowed
      cases allowed
    | adjustingFinished leads isAdjusting balanced handsOut =>
      rw [hstage] at isAdjusting
      cases isAdjusting
    | pickedUp isDistributing mayShop finds hasGoods =>
      rw [outstandingPickups_eq_zero_iff] at none ⊢
      intro c hc
      rcases mem_updateFirst hc with hc | ⟨_, _, rfl⟩
      · exact none c hc
      · simp [Bid.awaitsPickup]
    | _ => cases stays

theorem LeadsOn.outstandingPickups (h : book.LeadsOn later)
    (stays : later.run.stage = .distributing) (distributing : book.run.stage = .distributing)
    (none : book.outstandingPickups = 0) : later.outstandingPickups = 0 := by
  induction h using Relation.ReflTransGen.head_induction_on with
  | refl => exact none
  | head hstep hrest ih =>
    rcases hstep.stage_cases with hsame | hmove
    · have hnext := hsame.trans distributing
      exact ih hnext (hstep.outstandingPickups distributing hnext none)
    · -- A run that has stopped distributing does not begin again.
      rw [distributing] at hmove
      have hended := Stage.isTerminal_of_canMove_distributing hmove
      rw [← LeadsOn.stage_of_isTerminal hrest hended, stays] at hended
      cases hended

end OrderBook

/-! ## What a commit amounts to -/

/-- Runs that differ in the version and the history at most. -/
def Run.SameButHistory (run other : Run) : Prop :=
  run.id = other.id ∧ run.group = other.group ∧ run.store = other.store ∧ run.stage = other.stage

/-- Replies to a command that only moves the run: what they tell of the run differs in the version
and the history at most. Imbalances are those of the book that was loaded. -/
def Reply.SameMove : Reply → Reply → Prop
  | .confirmed run, .confirmed other => run.SameButHistory other
  | .completed run, .completed other => run.SameButHistory other
  | .cancelled run, .cancelled other => run.SameButHistory other
  | .shoppingCompleted stage _ _, .shoppingCompleted other _ _ => stage = other
  | _, _ => False

namespace Accepted

/-- The command is answered as it was and stores the same, when it is handled from beginning to end
at the moment of its commit. -/
def IsAtomic (a : Accepted) (after : Store) : Prop :=
  (a.alone a.before).1 = .ok a.reply ∧ (a.alone a.before).2.repository.store = after

/-- What others have stored since the book was loaded makes no difference: the draft was stored as a
whole, or nothing was stored in between, or the imbalances that were found are still the same. -/
def MissesNothing (a : Accepted) : Prop :=
  a.draft.isTouched = true ∨
    ∃ current ∈ a.before.find? a.errand.run,
      current.run.version = a.book.run.version ∨
        a.errand.command.action = .completeShopping ∧
          current.listImbalances = a.book.listImbalances

instance (a : Accepted) : Decidable a.MissesNothing := inferInstanceAs (Decidable (_ ∨ _))

/-- What a commit does to a store in which the run has this book. -/
structure Commits (a : Accepted) (current : OrderBook) (after : Store) : Prop where
  finds : a.before.find? a.errand.run = some current
  /-- What is stored now comes of the book that was loaded, by commits of this writer or others. -/
  leadsOn : a.book.LeadsOn current
  /-- The draft and the reply are what the command makes of the book that was loaded. -/
  executes : (Draft.ofBook a.book a.counters a.errand.now).execute a.errand.terms.limits
    a.errand.command = (.ok (a.draft, a.reply), a.draft.counters)
  /-- A command that misses nothing might as well have been handled just then. -/
  atomic : a.MissesNothing → a.IsAtomic after
  /-- Just then, any other would have been answered otherwise. -/
  missesNothing : (a.alone a.before).1 = .ok a.reply → a.MissesNothing
  /-- Of a draft that is not stored as a whole, the move is made in the book that is stored. -/
  moves : a.draft.isTouched = false → current.run.stage = a.book.run.stage ∧
    after = a.before.replace (current.moved a.draft.stage a.errand.now)
  /-- The command would have made the same move just then, unless it completes the shopping and
  there is nothing left to adjust. -/
  sameMove : a.draft.isTouched = false →
    (a.errand.command.action = .completeShopping → current.listImbalances ≠ []) →
    ∃ reply, (a.alone a.before).1 = .ok reply ∧ (a.alone a.before).2.repository.store = after ∧
      a.reply.SameMove reply

end Accepted

theorem Draft.Outcome.sameMove {limits : Limits} {book current : OrderBook} {counters : Counters}
    {now : Instant} {user : UserId} {action : Action} {d : Draft} {reply : Reply}
    (h : (Draft.ofBook book counters now).Outcome limits user action d reply)
    (untouched : d.isTouched = false) (leadsOn : book.LeadsOn current)
    (stage : current.run.stage = book.run.stage)
    (unbalanced : action = .completeShopping → current.listImbalances ≠ []) :
    ∃ again answer, (Draft.ofBook current counters now).Outcome limits user action again answer ∧
      again.book = current.moved d.stage now ∧ reply.SameMove answer := by
  obtain ⟨hid, hgroup, hstore, hleader⟩ := leadsOn.sameRun
  have hsame : ∀ new, Run.SameButHistory
      { book.run.enter new now with version := book.run.version + 1 }
      { current.run.enter new now with version := current.run.version + 1 } :=
    fun new => ⟨hid.symm, hgroup.symm, hstore.symm, rfl⟩
  have hstage : (Draft.ofBook current counters now).stage =
      (Draft.ofBook book counters now).stage := stage
  cases h with
  | confirmed leads allowed =>
    rw [← hstage] at allowed
    exact ⟨_, _, .confirmed ((hleader user).trans leads) allowed, rfl, hsame .confirmed⟩
  | shoppingUnbalanced leads isShopping _ =>
    rw [← hstage] at isShopping
    exact ⟨_, _, .shoppingUnbalanced ((hleader user).trans leads) isShopping (unbalanced rfl), rfl,
      rfl⟩
  | completed leads isDistributing isDone =>
    have hbook : book.run.stage = .distributing := isDistributing
    have hdone := leadsOn.outstandingPickups (stage.trans hbook) hbook isDone
    rw [← hstage] at isDistributing
    exact ⟨_, _, .completed ((hleader user).trans leads) isDistributing hdone, rfl,
      hsame .completed⟩
  | cancelled leads allowed =>
    rw [← hstage] at allowed
    exact ⟨_, _, .cancelled ((hleader user).trans leads) allowed, rfl, hsame .cancelled⟩
  | bidPlaced admits fits places moves
  | bidRetracted isOpen finds fits retracts moves
  | readyToggled isActive finds moves =>
    subst moves
    rw [movedIf_isTouched] at untouched
    cases untouched
  | _ => cases untouched

theorem Draft.Outcome.of_same_imbalances {limits : Limits} {book current : OrderBook}
    {counters : Counters} {now : Instant} {user : UserId} {d : Draft} {reply : Reply}
    (h : (Draft.ofBook book counters now).Outcome limits user .completeShopping d reply)
    (untouched : d.isTouched = false) (leadsOn : book.LeadsOn current)
    (stage : current.run.stage = book.run.stage)
    (same : current.listImbalances = book.listImbalances) :
    ∃ again, (Draft.ofBook current counters now).Outcome limits user .completeShopping again reply ∧
      again.book = current.moved d.stage now := by
  cases h with
  | shoppingBalanced leads allowed balanced handsOut => cases untouched
  | shoppingUnbalanced leads isShopping unbalanced =>
    have hbook : (Draft.ofBook book counters now).book.listImbalances =
        (Draft.ofBook current counters now).book.listImbalances := same.symm
    rw [hbook] at unbalanced ⊢
    exact ⟨_, .shoppingUnbalanced ((leadsOn.sameRun.leader user).trans leads)
      (stage.trans isShopping) unbalanced, rfl⟩

/-- Two books tell apart what a command that only moves the run is answered, but for a completion of
the shopping that finds the same imbalances. -/
theorem Draft.Outcome.of_same_reply {limits : Limits} {book current : OrderBook}
    {counters : Counters} {now : Instant} {user : UserId} {action : Action} {d again : Draft}
    {reply : Reply} (h : (Draft.ofBook book counters now).Outcome limits user action d reply)
    (h' : (Draft.ofBook current counters now).Outcome limits user action again reply)
    (untouched : d.isTouched = false) :
    current.run.version = book.run.version ∨
      action = .completeShopping ∧ current.listImbalances = book.listImbalances := by
  have hversion {new : Stage}
      (hrun : ((Draft.ofBook book counters now).moved new).book.run =
        ((Draft.ofBook current counters now).moved new).book.run) :
      current.run.version = book.run.version :=
    (Nat.succ.inj (congrArg Run.version hrun)).symm
  generalize hreply : reply = answer at h'
  cases h with
  | confirmed leads allowed =>
    cases h'
    exact .inl (hversion (Reply.confirmed.inj hreply))
  | shoppingUnbalanced leads isShopping unbalanced =>
    cases h' with
    | shoppingBalanced leads allowed balanced handsOut => cases hreply
    | shoppingUnbalanced leads isShopping unbalanced =>
      exact .inr ⟨rfl, (Reply.shoppingCompleted.inj hreply).2.1.symm⟩
  | completed leads isDistributing isDone =>
    cases h'
    exact .inl (hversion (Reply.completed.inj hreply))
  | cancelled leads allowed =>
    cases h'
    exact .inl (hversion (Reply.cancelled.inj hreply))
  | bidPlaced admits fits places moves
  | bidRetracted isOpen finds fits retracts moves
  | readyToggled isActive finds moves =>
    subst moves
    rw [movedIf_isTouched] at untouched
    cases untouched
  | _ => cases untouched

/-! ## Commands on their way -/

/-- A command on its way works on a book from which commits lead to the one that is stored. -/
structure Errand.IsUnderway (errand : Errand) (book : OrderBook) (store : Store) : Prop where
  isMember : errand.terms.directory.isMember book.run.group errand.command.user = true
  leadsOn : ∃ current, store.find? errand.run = some current ∧ book.LeadsOn current

def Progress.IsSound (store : Store) : Progress → Prop
  | .idle => True
  | .loaded errand book => errand.IsUnderway book store
  | .executed errand book counters d reply =>
    errand.IsUnderway book store ∧
      (Draft.ofBook book counters errand.now).Outcome errand.terms.limits errand.command.user
        errand.command.action d reply

theorem Errand.IsUnderway.replace {errand : Errand} {book current new : OrderBook} {store : Store}
    {run : RunId} (h : errand.IsUnderway book store) (finds : store.find? run = some current)
    (leads : current.Leads new) : errand.IsUnderway book (store.replace new) := by
  obtain ⟨stored, hstored, hleadsOn⟩ := h.leadsOn
  have hid := leads.sameRun.id.trans (Store.id_of_find? finds)
  refine ⟨h.isMember, ?_⟩
  by_cases hrun : errand.run = new.run.id
  · rw [← hid, ← hrun] at finds
    rw [hstored] at finds
    cases finds
    rw [hrun] at hstored ⊢
    exact ⟨new, Store.find?_replace_self hstored, hleadsOn.tail leads⟩
  · exact ⟨stored, by rw [Store.find?_replace_of_ne hrun]; exact hstored, hleadsOn⟩

theorem Progress.IsSound.replace {progress : Progress} {current new : OrderBook} {store : Store}
    {run : RunId} (h : progress.IsSound store) (finds : store.find? run = some current)
    (leads : current.Leads new) : progress.IsSound (store.replace new) := by
  cases progress with
  | idle => trivial
  | loaded errand book => exact Errand.IsUnderway.replace h finds leads
  | executed errand book counters d reply => exact ⟨h.1.replace finds leads, h.2⟩

/-! ## One commit -/

/-- A draft of the book that was loaded is stored over the book that others have made of it. -/
structure Accepted.IsCommitted (a : Accepted) (current : OrderBook) (after : Store) : Prop where
  isMember : a.errand.terms.directory.isMember a.book.run.group a.errand.command.user = true
  finds : a.before.find? a.errand.run = some current
  leadsOn : a.book.LeadsOn current
  outcome : (Draft.ofBook a.book a.counters a.errand.now).Outcome a.errand.terms.limits
    a.errand.command.user a.errand.command.action a.draft a.reply
  stored : a.draft.IsStored a.before after

namespace Accepted.IsCommitted

variable {a : Accepted} {current : OrderBook} {after : Store}

theorem finds_draft (h : a.IsCommitted current after) :
    a.before.find? a.draft.book.run.id = some current := by
  have hid := h.outcome.run_id.trans (h.leadsOn.sameRun.id.symm.trans (Store.id_of_find? h.finds))
  rw [hid]
  exact h.finds

theorem eq_of_version (h : a.IsCommitted current after)
    (version : current.run.version = a.book.run.version) : current = a.book := by
  rcases h.leadsOn.eq_or_lt with heq | hlt
  · exact heq
  · omega

theorem eq_of_isTouched (h : a.IsCommitted current after) (touched : a.draft.isTouched = true) :
    current = a.book := by
  cases h.stored with
  | whole _ hfinds version _ =>
    rw [h.finds_draft] at hfinds
    cases hfinds
    exact h.eq_of_version (version.trans h.outcome.loaded.1)
  | move untouched =>
    rw [touched] at untouched
    cases untouched
  | nothing untouched =>
    rw [touched] at untouched
    cases untouched

theorem moved_of_isTouched_eq_false (h : a.IsCommitted current after)
    (untouched : a.draft.isTouched = false) :
    current.run.stage = a.book.run.stage ∧ a.book.run.stage.canMove a.draft.stage = true ∧
      after = a.before.replace (current.moved a.draft.stage a.errand.now) := by
  obtain ⟨new, allowed, hmoved⟩ := h.outcome.eq_moved_of_isTouched_eq_false untouched
  have hstage : a.draft.stage = new := by
    rw [hmoved]
    rfl
  have hnow : a.draft.now = a.errand.now := by
    rw [hmoved]
    rfl
  cases h.stored with
  | whole touched =>
    rw [untouched] at touched
    cases touched
  | move _ _ hfinds stage =>
    rw [h.finds_draft] at hfinds
    cases hfinds
    refine ⟨stage.trans h.outcome.loaded.2, by rw [hstage]; exact allowed, ?_⟩
    rw [hnow]
    rfl
  | nothing _ stays =>
    rw [hstage, h.outcome.loaded.2] at stays
    exact absurd stays (Stage.ne_of_canMove allowed)

theorem alone_eq_ok (h : a.IsCommitted current after) {again : Draft} {reply : Reply}
    (outcome : (Draft.ofBook current a.counters a.errand.now).Outcome a.errand.terms.limits
      a.errand.command.user a.errand.command.action again reply) :
    (a.alone a.before).1 = .ok reply ∧
      (a.alone a.before).2.repository.store = a.before.replace again.book := by
  have isMember := h.isMember
  rw [← h.leadsOn.sameRun.group] at isMember
  obtain ⟨desk, hhandle, hrepository⟩ := Desk.handle_ofStore [] h.finds isMember outcome
  unfold alone
  rw [hhandle]
  exact ⟨rfl, congrArg Repository.store hrepository⟩

/-! ### Nothing is missed -/

theorem isAtomic_of_eq (h : a.IsCommitted a.book after) :
    after = a.before.replace a.draft.book ∧ a.IsAtomic after := by
  obtain ⟨hreply, hstore⟩ := h.alone_eq_ok h.outcome
  have hid := Store.id_of_find? h.finds
  have hafter := Desk.store_of_isStored (by rw [hid]; exact h.finds) h.outcome h.stored
  exact ⟨hafter, hreply, hstore.trans hafter.symm⟩

theorem isAtomic_of_same_imbalances (h : a.IsCommitted current after)
    (untouched : a.draft.isTouched = false)
    (completes : a.errand.command.action = .completeShopping)
    (same : current.listImbalances = a.book.listImbalances) : a.IsAtomic after := by
  obtain ⟨hstage, _, hafter⟩ := h.moved_of_isTouched_eq_false untouched
  have outcome := h.outcome
  rw [completes] at outcome
  obtain ⟨again, hagain, hbook⟩ := outcome.of_same_imbalances untouched h.leadsOn hstage same
  rw [← completes] at hagain
  obtain ⟨hreply, hstore⟩ := h.alone_eq_ok hagain
  exact ⟨hreply, by rw [hstore, hbook, hafter]⟩

theorem isAtomic (h : a.IsCommitted current after) (nothing : a.MissesNothing) :
    a.IsAtomic after := by
  have hatomic (heq : current = a.book) : a.IsAtomic after := by
    subst heq
    exact h.isAtomic_of_eq.2
  cases touched : a.draft.isTouched with
  | true => exact hatomic (h.eq_of_isTouched touched)
  | false =>
    rcases nothing with whole | ⟨book, hbook, hsame⟩
    · rw [touched] at whole
      cases whole
    · obtain rfl := Option.some.inj (h.finds.symm.trans hbook)
      rcases hsame with version | ⟨completes, same⟩
      · exact hatomic (h.eq_of_version version)
      · exact h.isAtomic_of_same_imbalances touched completes same

theorem missesNothing (h : a.IsCommitted current after)
    (reply : (a.alone a.before).1 = .ok a.reply) : a.MissesNothing := by
  cases touched : a.draft.isTouched with
  | true => exact .inl touched
  | false =>
    obtain ⟨book, again, handled⟩ := Desk.handle_ok (Repository.isUnraced_ofStore a.before)
      (Prod.ext reply rfl)
    have hbook : a.before.find? a.errand.run = some book := handled.finds
    obtain rfl := Option.some.inj (h.finds.symm.trans hbook)
    exact .inr ⟨current, h.finds, h.outcome.of_same_reply handled.outcome touched⟩

/-! ### What is stored -/

theorem commits (h : a.IsCommitted current after) : a.Commits current after where
  finds := h.finds
  leadsOn := h.leadsOn
  executes := Draft.execute_eq_ok_iff.mpr ⟨h.outcome, rfl⟩
  atomic := h.isAtomic
  missesNothing := h.missesNothing
  moves untouched := by
    obtain ⟨hstage, _, hafter⟩ := h.moved_of_isTouched_eq_false untouched
    exact ⟨hstage, hafter⟩
  sameMove := by
    intro untouched unbalanced
    obtain ⟨hstage, _, hafter⟩ := h.moved_of_isTouched_eq_false untouched
    obtain ⟨again, answer, hagain, hbook, hanswer⟩ :=
      h.outcome.sameMove untouched h.leadsOn hstage unbalanced
    obtain ⟨hreply, hstore⟩ := h.alone_eq_ok hagain
    exact ⟨answer, hreply, by rw [hstore, hbook, hafter], hanswer⟩

theorem leads (h : a.IsCommitted current after) :
    ∃ new, current.Leads new ∧ after = a.before.replace new := by
  cases touched : a.draft.isTouched with
  | true =>
    obtain rfl := h.eq_of_isTouched touched
    obtain ⟨hafter, _⟩ := h.isAtomic_of_eq
    exact ⟨a.draft.book, .changes ⟨_, _, _, _, _, _, h.outcome, rfl⟩, hafter⟩
  | false =>
    obtain ⟨hstage, hallowed, hafter⟩ := h.moved_of_isTouched_eq_false touched
    rw [← hstage] at hallowed
    exact ⟨_, .moves hallowed, hafter⟩

end Accepted.IsCommitted

/-! ## All writers -/

/-- Commits one after the other, from one store to another. -/
inductive CommitsInOrder (start : Store) : List Accepted → Store → Prop
  | start : CommitsInOrder start [] start
  | commit {log : List Accepted} {a : Accepted} {after : Store} {current : OrderBook}
      (before : CommitsInOrder start log a.before) (commits : a.Commits current after) :
      CommitsInOrder start (log ++ [a]) after

theorem serially_cons (a : Accepted) (rest : List Accepted) (store : Store) :
    serially (a :: rest) store =
      ((a.alone store).1.toOption :: (serially rest (a.alone store).2.repository.store).1,
        (serially rest (a.alone store).2.repository.store).2) := rfl

theorem serially_append (log more : List Accepted) (store : Store) :
    serially (log ++ more) store =
      ((serially log store).1 ++ (serially more (serially log store).2).1,
        (serially more (serially log store).2).2) := by
  induction log generalizing store with
  | nil => rfl
  | cons a rest ih =>
    rw [List.cons_append, serially_cons, serially_cons, ih]
    rfl

namespace CommitsInOrder

variable {start final : Store} {log : List Accepted}

theorem serially_eq (h : CommitsInOrder start log final) (nothing : ∀ a ∈ log, a.MissesNothing) :
    serially log start = (log.map fun a => some a.reply, final) := by
  induction h with
  | start => rfl
  | @commit log a after current before commits ih =>
    have hbefore := ih fun b hb => nothing b (List.mem_append_left _ hb)
    obtain ⟨hreply, hafter⟩ := commits.atomic (nothing a (by simp))
    rw [serially_append, hbefore, List.map_append]
    simp [serially, hreply, hafter, Except.toOption]

theorem missesNothing_of_replies (h : CommitsInOrder start log final)
    (replies : (serially log start).1 = log.map fun a => some a.reply) :
    ∀ a ∈ log, a.MissesNothing := by
  induction h with
  | start => simp
  | @commit log a after current before commits ih =>
    rw [serially_append, List.map_append] at replies
    obtain ⟨hbefore, hlast⟩ := List.append_inj' replies rfl
    have hlog := ih hbefore
    rw [before.serially_eq hlog] at hlast
    have hreply : (a.alone a.before).1.toOption = some a.reply := (List.cons.inj hlast).1
    intro b hb
    rcases List.mem_append.mp hb with hb | hb
    · exact hlog b hb
    · obtain rfl := List.mem_singleton.mp hb
      apply commits.missesNothing
      cases hanswer : (b.alone b.before).1 with
      | ok answer =>
        rw [hanswer] at hreply
        exact congrArg Except.ok (Option.some.inj hreply)
      | error why =>
        rw [hanswer] at hreply
        cases hreply

theorem serially_eq_iff (h : CommitsInOrder start log final) :
    serially log start = (log.map fun a => some a.reply, final) ↔
      ∀ a ∈ log, a.MissesNothing :=
  ⟨fun hserially => h.missesNothing_of_replies (congrArg Prod.fst hserially), h.serially_eq⟩

end CommitsInOrder

namespace SharedDesk

variable {s : SharedDesk} {writer : Nat} {errand : Errand} {start : Store}

structure IsSound (start : Store) (s : SharedDesk) : Prop where
  unraced : s.desk.repository.IsUnraced
  progress : ∀ writer, (s.progress writer).IsSound s.desk.repository.store
  commits : CommitsInOrder start s.log s.desk.repository.store

theorem IsSound.put {progress : Progress} {desk : Desk} (h : s.IsSound start)
    (keeps : s.desk.Keeps desk) (sound : progress.IsSound s.desk.repository.store) :
    (s.put writer progress desk).IsSound start where
  unraced := keeps.unraced
  progress w := by
    show (if w = writer then progress else s.progress w).IsSound desk.repository.store
    rw [keeps.store]
    split
    · exact sound
    · exact h.progress w
  commits := by
    show CommitsInOrder start s.log desk.repository.store
    rw [keeps.store]
    exact h.commits

theorem IsSound.advance (h : s.IsSound start) (writer : Nat) (errand : Errand) :
    (s.advance writer errand).IsSound start := by
  have hprogress := h.progress writer
  unfold SharedDesk.advance
  split
  · -- The writer loads a book, and from there no commit has led on yet.
    split
    · rename_i book desk hload
      obtain ⟨finds, isMember, hkeeps, _⟩ := Desk.loadFor_ok h.unraced hload
      exact h.put hkeeps ⟨isMember, book, finds, .refl⟩
    · rename_i why desk hload
      exact h.put (Desk.loadFor_error h.unraced hload) trivial
  · -- The command works on a draft, whatever the others have stored by now.
    rename_i errand book hloaded
    rw [hloaded] at hprogress
    split
    · rename_i d reply desk hexecute
      obtain ⟨outcome, rfl⟩ := Desk.execute_ok hexecute
      exact h.put ⟨h.unraced, rfl, rfl⟩ ⟨hprogress, outcome⟩
    · rename_i why desk hexecute
      exact h.put (Desk.execute_error h.unraced hexecute) trivial
  · -- The draft is committed, and all others that are underway are one commit further behind.
    rename_i errand book counters d reply hexecuted
    rw [hexecuted] at hprogress
    obtain ⟨underway, outcome⟩ := hprogress
    split
    · rename_i desk hcommit
      obtain ⟨stored, hunraced, _, _⟩ := Desk.commit_ok h.unraced hcommit
      obtain ⟨isMember, current, finds, leadsOn⟩ := underway
      have committed : (Accepted.mk errand book counters d reply
          s.desk.repository.store).IsCommitted current desk.repository.store :=
        ⟨isMember, finds, leadsOn, outcome, stored⟩
      obtain ⟨new, leads, hafter⟩ := committed.leads
      refine ⟨hunraced, fun w => ?_, h.commits.commit committed.commits⟩
      show Progress.IsSound desk.repository.store (if w = writer then _ else s.progress w)
      split
      · trivial
      · rw [hafter]
        exact (h.progress w).replace finds leads
    · rename_i why desk hcommit
      exact h.put (Desk.commit_error h.unraced hcommit) trivial

theorem IsSound.advanceAll (h : s.IsSound start) (schedule : List (Nat × Errand)) :
    (s.advanceAll schedule).IsSound start := by
  induction schedule generalizing s with
  | nil => exact h
  | cons step rest ih => exact ih (h.advance step.1 step.2)

theorem isSound_of {desk : Desk} (unraced : desk.repository.IsUnraced) :
    (SharedDesk.of desk).IsSound desk.repository.store :=
  ⟨unraced, fun _ => trivial, .start⟩

/-- However the steps of any number of writers at one desk follow each other, the accepted commands
lead from the first store to the last one in the order of their commits. Their outcome is that of
the same commands one after the other if none of them misses what others have stored, and only
then: a commit of a mere move compares the stage alone. -/
theorem serializable_iff_nothing_missed {desk : Desk} (unraced : desk.repository.IsUnraced)
    (schedule : List (Nat × Errand)) :
    CommitsInOrder desk.repository.store ((SharedDesk.of desk).advanceAll schedule).log
        ((SharedDesk.of desk).advanceAll schedule).desk.repository.store ∧
      (((SharedDesk.of desk).advanceAll schedule).IsSerializable desk.repository.store ↔
        ∀ a ∈ ((SharedDesk.of desk).advanceAll schedule).log, a.MissesNothing) := by
  have hcommits := ((isSound_of unraced).advanceAll schedule).commits
  exact ⟨hcommits, hcommits.serially_eq_iff⟩

/-- The leader's completion of the shopping is overtaken by the choice of a helper, and misses
nothing by it. -/
theorem serializable_when_overtaken :
    (overtake (tripDesk 6) (tripErrand 1 .completeShopping)
      (tripErrand 1 (.setHelper ⟨2⟩ true))).log.length = 2 ∧
    (overtake (tripDesk 6) (tripErrand 1 .completeShopping)
      (tripErrand 1 (.setHelper ⟨2⟩ true))).IsSerializable (tripDesk 6).repository.store := by
  have hreachable : (tripDesk 6).Reachable Desk.tripTerms := ⟨Desk.tripTurns.take 6, rfl⟩
  have hnothing : ∀ a ∈ (overtake (tripDesk 6) (tripErrand 1 .completeShopping)
      (tripErrand 1 (.setHelper ⟨2⟩ true))).log, a.MissesNothing := by
    decide +kernel
  refine ⟨by decide +kernel, ?_⟩
  generalize tripDesk 6 = desk at hreachable hnothing ⊢
  exact (serializable_iff_nothing_missed hreachable.isUnraced _).2.mpr hnothing

end SharedDesk

end BuyingClub
