import BuyingClub.Proofs.Desk.Handling
import Mathlib.Logic.Relation

/-!
# What can be reached

A desk goes through turns: runs are created, commands handled, requests made to fail, and the desk
reopened. What one turn does to the store is `Store.Turns`, and from there every stored book is one
that commands make of a new run.
-/

namespace BuyingClub

/-! ## Books -/

namespace OrderBook

/-- The book of a run that was just created. -/
def IsNew (book : OrderBook) : Prop :=
  ∃ (id : RunId) (group : GroupId) (store : StoreId) (leader : UserId)
    (participation : ParticipationId) (now : Instant),
    book = .start (.start id group store now) (.join participation id leader true now)

/-- One book is what a command makes of the other, at some time and with some counters. -/
def Changes (limits : Limits) (book after : OrderBook) : Prop :=
  ∃ (counters : Counters) (now : Instant) (user : UserId) (action : Action) (d : Draft)
    (reply : Reply),
    (Draft.ofBook book counters now).Outcome limits user action d reply ∧ after = d.book

theorem Changes.run_id {limits : Limits} {book after : OrderBook} (h : book.Changes limits after) :
    after.run.id = book.run.id := by
  obtain ⟨counters, now, user, action, d, reply, houtcome, rfl⟩ := h
  exact houtcome.run_id

/-- A book that commands make of the book of a new run. -/
inductive Reachable (limits : Limits) : OrderBook → Prop
  | new {book : OrderBook} (isNew : book.IsNew) : Reachable limits book
  | changed {book after : OrderBook} (before : Reachable limits book)
      (changes : book.Changes limits after) : Reachable limits after

theorem Reachable.induct {limits : Limits} {motive : OrderBook → Prop} {book : OrderBook}
    (h : book.Reachable limits) (new : ∀ book, book.IsNew → motive book)
    (kept : ∀ book counters now user action d reply, motive book →
      (Draft.ofBook book counters now).Outcome limits user action d reply → motive d.book) :
    motive book := by
  induction h with
  | new isNew => exact new _ isNew
  | changed before changes ih =>
    obtain ⟨counters, now, user, action, d, reply, houtcome, rfl⟩ := changes
    exact kept _ _ _ _ _ _ _ ih houtcome

end OrderBook

/-! ## Stores -/

/-- What one turn at a desk can do to the store. -/
inductive Store.Turns (limits : Limits) (store : Store) : Store → Prop
  | kept : Turns limits store store
  | created {book : OrderBook} (fresh : store.find? book.run.id = none) (isNew : book.IsNew) :
      Turns limits store ⟨store.books ++ [book]⟩
  | changed {book after : OrderBook} (finds : store.find? book.run.id = some book)
      (changes : book.Changes limits after) : Turns limits store (store.replace after)

namespace Store.Turns

variable {limits : Limits} {store after : Store}

theorem forall_books {motive : OrderBook → Prop} (h : store.Turns limits after)
    (before : ∀ book ∈ store.books, motive book) (new : ∀ book, book.IsNew → motive book)
    (kept : ∀ book later, motive book → book.Changes limits later → motive later) :
    ∀ book ∈ after.books, motive book := by
  intro book hbook
  cases h with
  | kept => exact before book hbook
  | created fresh isNew =>
    rcases List.mem_append.mp hbook with hbook | hbook
    · exact before book hbook
    · rw [List.mem_singleton] at hbook
      rw [hbook]
      exact new _ isNew
  | changed finds changes =>
    rcases Store.mem_replace hbook with hbook | rfl
    · exact before book hbook
    · exact kept _ _ (before _ (Store.mem_of_find? finds)) changes

theorem reachable (h : store.Turns limits after)
    (before : ∀ book ∈ store.books, book.Reachable limits) :
    ∀ book ∈ after.books, book.Reachable limits :=
  h.forall_books before (fun _ isNew => .new isNew) fun _ _ hreachable changes =>
    .changed hreachable changes

theorem find? {run : RunId} {book : OrderBook} (h : store.Turns limits after)
    (finds : store.find? run = some book) :
    ∃ later, after.find? run = some later ∧ (later = book ∨ book.Changes limits later) := by
  cases h with
  | kept => exact ⟨book, finds, .inl rfl⟩
  | created fresh isNew =>
    refine ⟨book, ?_, .inl rfl⟩
    unfold Store.find? at finds ⊢
    rw [List.find?_append, finds]
    rfl
  | @changed old later hfinds changes =>
    have hid := changes.run_id
    by_cases hrun : run = later.run.id
    · subst hrun
      rw [hid, hfinds] at finds
      cases finds
      rw [← hid] at hfinds
      exact ⟨later, Store.find?_replace_self hfinds, .inr changes⟩
    · exact ⟨book, by rw [Store.find?_replace_of_ne hrun]; exact finds, .inl rfl⟩

end Store.Turns

/-! ## Desks -/

namespace Desk

/-- What can happen at a desk while nobody else writes to its repository. -/
inductive Turn where
  | create (group : GroupId) (store : StoreId) (leader : UserId) (now : Instant)
  | handle (run : RunId) (command : Command) (now : Instant)
  /-- From now on the repository is open or closed, and these requests to it fail. -/
  | disturb (isClosed : Bool) (disturbances : List Disturbance)
      (unraced : ∀ d ∈ disturbances, ∀ stage, d.effect ≠ .race stage)
  /-- The desk is opened again, with identifiers from after those in use. -/
  | resume (now : Instant)

variable (terms : Terms)

def take (desk : Desk) : Turn → Desk
  | .create group store leader now => ((createRun terms group store leader now).on desk).2
  | .handle run command now => ((Desk.handle terms run command now).on desk).2
  | .disturb isClosed disturbances _ =>
    { desk with repository := { desk.repository with isClosed, disturbances } }
  | .resume now =>
    match (request (Repository.watermark now)).on desk with
    | (.ok mark, desk) => { desk with counters := .startingAfter mark }
    | (.error _, desk) => desk

def takeAll (desk : Desk) (turns : List Turn) : Desk :=
  turns.foldl (take terms) desk

/-- A desk over an empty store. -/
def opened : Desk := ⟨.ofStore .empty, .start, []⟩

/-- A desk that turns lead to. -/
def Reachable (desk : Desk) : Prop := ∃ turns, desk = opened.takeAll terms turns

/-- The book of a run that is created with these counters. -/
def newBook (counters : Counters) (group : GroupId) (store : StoreId) (leader : UserId)
    (now : Instant) : OrderBook :=
  .start (.start ⟨counters.run⟩ group store now)
    (.join ⟨counters.participation⟩ ⟨counters.run⟩ leader true now)

/-- The run for which a command succeeds in a turn, if one does. -/
def served? (desk : Desk) : Turn → Option RunId
  | .handle run command now =>
    if ((Desk.handle terms run command now).on desk).1.isOk then some run else none
  | _ => none

/-- What a turn comes to: a run is created, a command succeeds, the desk is opened again, or nothing
is stored. -/
inductive Took (desk : Desk) : Turn → Desk → Prop
  | created {group : GroupId} {store : StoreId} {leader : UserId} {now : Instant} {after : Desk}
      (fresh : desk.repository.store.find? ⟨desk.counters.run⟩ = none)
      (stores : after.repository.store =
        ⟨desk.repository.store.books ++ [newBook desk.counters group store leader now]⟩)
      (counts : after.counters = desk.counters.drawRun.2.drawParticipation.2)
      {storeName : Option String}
      (gives : after.journal = desk.journal ++
        [{ Event.ofRun (newBook desk.counters group store leader now).run (.runCreated leader) now
          with storeName }]) :
      Took desk (.create group store leader now) after
  | handled {run : RunId} {command : Command} {now : Instant} {book : OrderBook} {d : Draft}
      {reply : Reply} {after : Desk} (finds : desk.repository.store.find? run = some book)
      (outcome : (Draft.ofBook book desk.counters now).Outcome terms.limits command.user
        command.action d reply)
      (serves : desk.served? terms (.handle run command now) = some run)
      (stores : after.repository.store = desk.repository.store.replace d.book)
      (counts : after.counters = d.counters)
      (gives : after.journal = desk.journal ++
        d.events.map (·.nameStore (terms.directory.stores.find? book.run.store))) :
      Took desk (.handle run command now) after
  | resumed {now : Instant} {after : Desk}
      (stores : after.repository.store = desk.repository.store)
      (counts : after.counters = .startingAfter desk.repository.store.watermark)
      (gives : after.journal = desk.journal) :
      Took desk (.resume now) after
  | kept {turn : Turn} {after : Desk} (stores : after.repository.store = desk.repository.store)
      (serves : desk.served? terms turn = none)
      (counts : ∀ now, turn = .resume now → after.counters = desk.counters)
      (gives : after.journal = desk.journal) :
      Took desk turn after

variable {terms} {desk after : Desk} {now : Instant}

/-! ### Single turns -/

theorem isNew_newBook (counters : Counters) (group : GroupId) (store : StoreId) (leader : UserId)
    (now : Instant) : (newBook counters group store leader now).IsNew :=
  ⟨_, _, _, _, _, _, rfl⟩

theorem createRun_ok {group : GroupId} {store : StoreId} {leader : UserId} {book : OrderBook}
    (unraced : desk.repository.IsUnraced)
    (h : (createRun terms group store leader now).on desk = (.ok book, after)) :
    after.repository.IsUnraced ∧
      desk.repository.store.find? ⟨desk.counters.run⟩ = none ∧
      after.repository.store =
        ⟨desk.repository.store.books ++ [newBook desk.counters group store leader now]⟩ ∧
      after.counters = desk.counters.drawRun.2.drawParticipation.2 ∧
      ∃ storeName, after.journal = desk.journal ++
        [{ Event.ofRun (newBook desk.counters group store leader now).run (.runCreated leader) now
          with storeName }] := by
  unfold createRun at h
  obtain ⟨_, checked, hcheck, h⟩ := Work.bind_on_eq_ok_iff.mp h
  rw [on_checkMember] at hcheck
  split at hcheck <;> cases hcheck
  split at h
  · cases h
  · obtain ⟨id, _, ⟨⟩, h⟩ := Work.bind_on_eq_ok_iff.mp h
    obtain ⟨participation, _, ⟨⟩, h⟩ := Work.bind_on_eq_ok_iff.mp h
    obtain ⟨_, inserted, hinsert, h⟩ := Work.bind_on_eq_ok_iff.mp h
    obtain ⟨_, _, ⟨⟩, h⟩ := Work.bind_on_eq_ok_iff.mp h
    cases h
    obtain ⟨repository, ha, rfl⟩ := request_ok hinsert
    obtain ⟨hunraced, hinsert⟩ := Repository.ask_ok unraced ha
    obtain ⟨_, hinsert, heq⟩ := map_eq_ok_iff.mp hinsert
    obtain ⟨hfresh, rfl⟩ := Store.insert_eq_ok_iff.mp hinsert
    exact ⟨hunraced, hfresh, (congrArg Prod.snd heq).symm, rfl, _, rfl⟩

theorem createRun_error {group : GroupId} {store : StoreId} {leader : UserId} {why : Interruption}
    (unraced : desk.repository.IsUnraced)
    (h : (createRun terms group store leader now).on desk = (.error why, after)) :
    desk.Keeps after := by
  unfold createRun at h
  rcases Work.bind_on_eq_error_iff.mp h with h | ⟨_, checked, hcheck, h⟩
  · rw [on_checkMember] at h
    split at h <;> cases h
    exact .refl unraced
  rw [on_checkMember] at hcheck
  split at hcheck <;> cases hcheck
  split at h
  · cases h
    exact .refl unraced
  · rcases Work.bind_on_eq_error_iff.mp h with ⟨⟨⟩⟩ | ⟨id, _, ⟨⟩, h⟩
    rcases Work.bind_on_eq_error_iff.mp h with ⟨⟨⟩⟩ | ⟨participation, _, ⟨⟩, h⟩
    rcases Work.bind_on_eq_error_iff.mp h with h | ⟨_, inserted, _, h⟩
    · -- Numbers have been drawn by now, but the store is the one from before.
      have hkeeps := request_error (by exact unraced) h
      exact ⟨hkeeps.unraced, hkeeps.store, hkeeps.journal⟩
    · rcases Work.bind_on_eq_error_iff.mp h with ⟨⟨⟩⟩ | ⟨_, _, ⟨⟩, h⟩
      cases h

theorem take_resume (unraced : desk.repository.IsUnraced) (now : Instant) :
    (desk.take terms (.resume now)).repository.IsUnraced ∧
      (desk.take terms (.resume now)).repository.store = desk.repository.store ∧
      (desk.take terms (.resume now)).journal = desk.journal ∧
      ((desk.take terms (.resume now)).counters = desk.counters ∨
        (desk.take terms (.resume now)).counters =
          .startingAfter desk.repository.store.watermark) := by
  simp only [take, Work.on_request]
  rcases ha : Repository.watermark now desk.repository with ⟨(why | _) | mark, repository⟩
  · obtain ⟨hunraced, hstore⟩ := Repository.ask_error unraced ha
    exact ⟨hunraced, hstore, rfl, .inl rfl⟩
  · obtain ⟨hunraced, hstore⟩ := Repository.ask_error unraced ha
    exact ⟨hunraced, hstore, rfl, .inl rfl⟩
  · obtain ⟨hunraced, hanswer⟩ := Repository.ask_ok unraced ha
    obtain ⟨hmark, hstore⟩ := Prod.mk.inj (Except.ok.inj hanswer)
    exact ⟨hunraced, hstore.symm, rfl, .inr (by rw [hmark])⟩

theorem take_took (terms : Terms) (unraced : desk.repository.IsUnraced) (turn : Turn) :
    (desk.take terms turn).repository.IsUnraced ∧
      desk.Took terms turn (desk.take terms turn) := by
  cases turn with
  | create group store leader now =>
    rcases h : (createRun terms group store leader now).on desk with ⟨why | book, after⟩
    · have htake : desk.take terms (.create group store leader now) = after := congrArg Prod.snd h
      have hkeeps := createRun_error unraced h
      rw [htake]
      exact ⟨hkeeps.unraced, .kept hkeeps.store rfl nofun hkeeps.journal⟩
    · have htake : desk.take terms (.create group store leader now) = after := congrArg Prod.snd h
      obtain ⟨hunraced, hfresh, hstore, hcounters, _, hjournal⟩ := createRun_ok unraced h
      rw [htake]
      exact ⟨hunraced, .created hfresh hstore hcounters hjournal⟩
  | handle run command now =>
    rcases h : (Desk.handle terms run command now).on desk with ⟨why | reply, after⟩
    · have htake : desk.take terms (.handle run command now) = after := congrArg Prod.snd h
      have hkeeps := handle_error unraced h
      have hserves : desk.served? terms (.handle run command now) = none := by
        simp only [served?, h]
        rfl
      rw [htake]
      exact ⟨hkeeps.unraced, .kept hkeeps.store hserves nofun hkeeps.journal⟩
    · have htake : desk.take terms (.handle run command now) = after := congrArg Prod.snd h
      obtain ⟨book, d, hhandled⟩ := handle_ok unraced h
      have hserves : desk.served? terms (.handle run command now) = some run := by
        simp only [served?, h]
        rfl
      rw [htake]
      exact ⟨hhandled.unraced, .handled hhandled.finds hhandled.outcome hserves hhandled.stores
        hhandled.counts hhandled.gives⟩
  | disturb isClosed disturbances hunraced => exact ⟨hunraced, .kept rfl rfl nofun rfl⟩
  | resume now =>
    obtain ⟨hunraced, hstore, hjournal, hcounters | hcounters⟩ := take_resume unraced now
    · exact ⟨hunraced, .kept hstore rfl (fun _ _ => hcounters) hjournal⟩
    · exact ⟨hunraced, .resumed hstore hcounters hjournal⟩

theorem Took.turns {turn : Turn} (h : desk.Took terms turn after) :
    desk.repository.store.Turns terms.limits after.repository.store := by
  cases h with
  | created fresh stores counts =>
    rw [stores]
    exact .created fresh (isNew_newBook ..)
  | handled finds outcome serves stores counts =>
    rw [← Store.id_of_find? finds] at finds
    rw [stores]
    exact .changed finds ⟨_, _, _, _, _, _, outcome, rfl⟩
  | resumed stores counts =>
    rw [stores]
    exact .kept
  | kept stores serves counts =>
    rw [stores]
    exact .kept

theorem take_turns (terms : Terms) (unraced : desk.repository.IsUnraced) (turn : Turn) :
    (desk.take terms turn).repository.IsUnraced ∧
      desk.repository.store.Turns terms.limits (desk.take terms turn).repository.store :=
  ⟨(take_took terms unraced turn).1, (take_took terms unraced turn).2.turns⟩

/-! ### Runs of turns -/

theorem takeAll_unraced (unraced : desk.repository.IsUnraced) (turns : List Turn) :
    (desk.takeAll terms turns).repository.IsUnraced := by
  induction turns generalizing desk with
  | nil => exact unraced
  | cons turn rest ih => exact ih (take_turns terms unraced turn).1

theorem takeAll_reachable (unraced : desk.repository.IsUnraced)
    (before : ∀ book ∈ desk.repository.store.books, book.Reachable terms.limits)
    (turns : List Turn) :
    ∀ book ∈ (desk.takeAll terms turns).repository.store.books, book.Reachable terms.limits := by
  induction turns generalizing desk with
  | nil => exact before
  | cons turn rest ih =>
    obtain ⟨hunraced, hturns⟩ := take_turns terms unraced turn
    exact ih hunraced (hturns.reachable before)

theorem takeAll_find? {run : RunId} {book : OrderBook} (unraced : desk.repository.IsUnraced)
    (finds : desk.repository.store.find? run = some book) (turns : List Turn) :
    ∃ later, (desk.takeAll terms turns).repository.store.find? run = some later ∧
      Relation.ReflTransGen (OrderBook.Changes terms.limits) book later := by
  induction turns generalizing desk book with
  | nil => exact ⟨book, finds, .refl⟩
  | cons turn rest ih =>
    obtain ⟨hunraced, hturns⟩ := take_turns terms unraced turn
    obtain ⟨next, hnext, hstep⟩ := hturns.find? finds
    obtain ⟨later, hlater, hsteps⟩ := ih hunraced hnext
    refine ⟨later, hlater, ?_⟩
    rcases hstep with rfl | hchanges
    · exact hsteps
    · exact .head hchanges hsteps

theorem Reachable.isUnraced (h : desk.Reachable terms) : desk.repository.IsUnraced := by
  obtain ⟨turns, rfl⟩ := h
  exact takeAll_unraced (Repository.isUnraced_ofStore _) turns

theorem Reachable.book {book : OrderBook} (h : desk.Reachable terms)
    (hbook : book ∈ desk.repository.store.books) : book.Reachable terms.limits := by
  obtain ⟨turns, rfl⟩ := h
  refine takeAll_reachable (Repository.isUnraced_ofStore _) ?_ turns book hbook
  intro b hb
  cases hb

/-! ### A trip of two -/

/-- Two members of a group, and one store. -/
def tripTerms : Terms := ⟨⟨[(⟨1⟩, ⟨1⟩), (⟨1⟩, ⟨2⟩)], [(⟨1⟩, "Market")], [], []⟩, .default⟩

def tripTurn (user : Nat) (action : Action) : Turn :=
  .handle ⟨1⟩ ⟨⟨user⟩, action⟩ (.ofSeconds 0)

/-- They ask for two and for four of a product, five are bought, and they have to adjust. -/
def tripTurns : List Turn :=
  [.create ⟨1⟩ ⟨1⟩ ⟨1⟩ (.ofSeconds 0),
    tripTurn 1 (.placeBid ⟨1⟩ (.ofInt 2) false none),
    tripTurn 2 (.placeBid ⟨1⟩ (.ofInt 4) false none),
    tripTurn 1 .forceConfirm,
    tripTurn 1 .startShopping,
    tripTurn 1 (.recordPurchase ⟨1⟩ (.ofInt 5) (.ofInt 1) none),
    tripTurn 1 .completeShopping]

end Desk

end BuyingClub
