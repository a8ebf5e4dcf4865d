import BuyingClub.Proofs.Reachability

/-!
# A desk that several writers share

Each writer loads a book, lets a command work on a draft of it and commits the draft. In between,
the others take steps of their own. `IsSerializable` says that the outcome is that of the accepted
commands one after the other, which does not always hold.
-/

namespace BuyingClub

/-- A command for a run, and when and on which terms it is handled. -/
structure Errand where
  terms : Terms
  run : RunId
  command : Command
  now : Instant

/-- Where a writer is. -/
inductive Progress where
  | idle
  | loaded (errand : Errand) (book : OrderBook)
  | executed (errand : Errand) (book : OrderBook) (counters : Counters) (d : Draft) (reply : Reply)

/-- A command whose draft was stored: what had been loaded, the counters as they were then, what
came of it, and what was stored just before. -/
structure Accepted where
  errand : Errand
  book : OrderBook
  counters : Counters
  draft : Draft
  reply : Reply
  before : Store

structure SharedDesk where
  desk : Desk
  progress : Nat → Progress
  /-- What was accepted, in order. -/
  log : List Accepted

namespace SharedDesk

/-- All writers are idle. -/
def of (desk : Desk) : SharedDesk := ⟨desk, fun _ => .idle, []⟩

def put (s : SharedDesk) (writer : Nat) (progress : Progress) (desk : Desk) : SharedDesk :=
  { s with desk, progress := fun w => if w = writer then progress else s.progress w }

/-- The next step of a writer. One that is idle takes up the errand. -/
def advance (s : SharedDesk) (writer : Nat) (errand : Errand) : SharedDesk :=
  match s.progress writer with
  | .idle =>
    match (Desk.loadFor errand.terms errand.run errand.command.user errand.now).on s.desk with
    | (.ok book, desk) => s.put writer (.loaded errand book) desk
    | (.error _, desk) => s.put writer .idle desk
  | .loaded errand book =>
    match (Desk.execute errand.terms errand.command book errand.now).on s.desk with
    | (.ok (d, reply), desk) => s.put writer (.executed errand book s.desk.counters d reply) desk
    | (.error _, desk) => s.put writer .idle desk
  | .executed errand book counters d reply =>
    match (Desk.commit d).on s.desk with
    | (.ok _, desk) =>
      let published := (Desk.publish errand.terms book.run.store d.events).on desk
      { s.put writer .idle published.2 with
        log := s.log ++ [⟨errand, book, counters, d, reply, s.desk.repository.store⟩] }
    | (.error _, desk) => s.put writer .idle desk

def advanceAll (s : SharedDesk) (schedule : List (Nat × Errand)) : SharedDesk :=
  schedule.foldl (fun s step => s.advance step.1 step.2) s

end SharedDesk

/-! ## One after the other -/

/-- Handles the command from beginning to end on a store, at the time and with the counters that it
was handled with. -/
def Accepted.alone (a : Accepted) (store : Store) : Except Interruption Reply × Desk :=
  (Desk.handle a.errand.terms a.errand.run a.errand.command a.errand.now).on
    ⟨.ofStore store, a.counters, []⟩

/-- What commands are answered that are handled one after the other, if they are, and the store in
the end. -/
def serially : List Accepted → Store → List (Option Reply) × Store
  | [], store => ([], store)
  | a :: rest, store =>
    let (reply, desk) := a.alone store
    let (replies, store) := serially rest desk.repository.store
    (reply.toOption :: replies, store)

/-- The accepted commands, handled one after the other in the order of their commits, are answered
as they were and leave the same store. -/
def SharedDesk.IsSerializable (start : Store) (s : SharedDesk) : Prop :=
  serially s.log start = (s.log.map fun a => some a.reply, s.desk.repository.store)

deriving instance DecidableEq for Action, Reply, Store

instance (start : Store) (s : SharedDesk) : Decidable (s.IsSerializable start) :=
  inferInstanceAs (Decidable (_ = _))

/-! ## Two at the same time -/

namespace SharedDesk

def tripErrand (user : Nat) (action : Action) : Errand :=
  ⟨Desk.tripTerms, ⟨1⟩, ⟨⟨user⟩, action⟩, .ofSeconds 60⟩

/-- The first writer loads and executes its command, the second one handles its own from beginning
to end, and only then the first one commits. -/
def overtake (desk : Desk) (first second : Errand) : SharedDesk :=
  (SharedDesk.of desk).advanceAll
    [(0, first), (0, first), (1, second), (1, second), (1, second), (0, first)]

/-- The desk of the trip after some of its turns. -/
def tripDesk (turns : Nat) : Desk :=
  Desk.opened.takeAll Desk.tripTerms (Desk.tripTurns.take turns)

/-- The two ways in which a command that only moves the run misses what another writer did. The
leader forces confirmation while a helper is chosen: the reply tells of a version that is not the
one stored. The leader completes the shopping while what is missing is bought: the run goes to
adjusting although nothing is left to adjust. -/
theorem not_serializable_when_overtaken :
    ¬ (overtake (tripDesk 3) (tripErrand 1 .forceConfirm)
        (tripErrand 1 (.setHelper ⟨2⟩ true))).IsSerializable (tripDesk 3).repository.store ∧
      ¬ (overtake (tripDesk 6) (tripErrand 1 .completeShopping)
        (tripErrand 1 (.recordPurchase ⟨1⟩ (.ofInt 6) (.ofInt 1) none))).IsSerializable
          (tripDesk 6).repository.store := by
  constructor <;> decide +kernel

end SharedDesk

end BuyingClub
