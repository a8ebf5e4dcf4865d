import BuyingClub.Command.Execution
import BuyingClub.Directory
import BuyingClub.OrderBook.PickupSheet
import BuyingClub.Store.Repository

/-!
# The desk

Where commands are handled, one after the other: load the order book, check that the caller belongs
to its group, let the command work on a draft, store the draft in one write, and only then give out
the events.
-/

namespace BuyingClub

/-- What the desk works by. -/
structure Terms where
  directory : Directory
  limits : Limits

structure Desk where
  repository : Repository
  counters : Counters
  /-- The events given out so far. -/
  journal : List Event

/-- Why work at the desk had no result. -/
inductive Interruption where
  | refused (why : Refusal)
  | crashed

/-- Work at the desk. What it did before an interruption stays done. -/
abbrev Work := ExceptT Interruption (StateM Desk)

namespace Desk

/-! ## Steps -/

def refuse {α : Type} (why : Refusal) : Work α := throw (.refused why)

/-- Puts a request to the repository. -/
def attempt {α : Type} (ask : Repository → Except Breakdown α × Repository) :
    Work (Except StoreRefusal α) := do
  let desk ← get
  let (result, repository) := ask desk.repository
  set { desk with repository }
  match result with
  | .ok a => return .ok a
  | .error (.refused why) => return .error why
  | .error .crashed => throw .crashed

/-- Puts a request to the repository that must be granted. -/
def request {α : Type} (ask : Repository → Except Breakdown α × Repository) : Work α := do
  match ← attempt ask with
  | .ok a => return a
  | .error why => refuse (.store why)

def drawRun : Work RunId :=
  modifyGet fun desk =>
    let (id, counters) := desk.counters.drawRun
    (id, { desk with counters })

def drawParticipation : Work ParticipationId :=
  modifyGet fun desk =>
    let (id, counters) := desk.counters.drawParticipation
    (id, { desk with counters })

def giveOut (events : List Event) : Work Unit :=
  modify fun desk => { desk with journal := desk.journal ++ events }

def checkMember (terms : Terms) (group : GroupId) (user : UserId) : Work Unit :=
  if terms.directory.isMember group user then pure ()
  else refuse (.forbidden (.notMember user group))

/-! ## Reading -/

def load (run : RunId) (now : Instant) : Work OrderBook := do
  match ← attempt (Repository.load run now) with
  | .ok book => return book
  | .error (.unknown id) => refuse (.missing (.run id))
  | .error why => refuse (.store why)

/-- The order book of a run that the user may see. -/
def loadFor (terms : Terms) (run : RunId) (user : UserId) (now : Instant) : Work OrderBook := do
  let book ← load run now
  checkMember terms book.run.group user
  return book

def pickupSheet (terms : Terms) (run : RunId) (user : UserId) (now : Instant) :
    Work (List PickupRow) := do
  let book ← loadFor terms run user now
  match book.pickupSheet terms.directory.products terms.directory.users with
  | .ok rows => return rows
  | .error why => refuse why

/-- The runs of a group, oldest first. -/
def listRuns (terms : Terms) (group : GroupId) (user : UserId) (now : Instant) :
    Work (List Run) := do
  checkMember terms group user
  request (Repository.runsOf group now)

/-! ## Writing -/

/-- Starts a run in planning, with its leader as the only participant. -/
def createRun (terms : Terms) (group : GroupId) (store : StoreId) (leader : UserId)
    (now : Instant) : Work OrderBook := do
  checkMember terms group leader
  match terms.directory.stores.find? store with
  | none => refuse (.missing (.store store))
  | some storeName =>
    let run := Run.start (← drawRun) group store now
    let book := OrderBook.start run (.join (← drawParticipation) run.id leader true now)
    request (Repository.insert book now)
    giveOut [{ Event.ofRun run (.runCreated leader) now with storeName := some storeName }]
    return book

/-- Lets a command work on a draft. -/
def execute (terms : Terms) (command : Command) (book : OrderBook) (now : Instant) :
    Work (Draft × Reply) := do
  let desk ← get
  let (result, counters) :=
    (Draft.ofBook book desk.counters now).execute terms.limits command
  set { desk with counters }
  match result with
  | .ok done => return done
  | .error why => refuse why

/-- Stores a draft. A draft with nothing but another stage only has its stage stored. -/
def commit (d : Draft) : Work Unit := do
  if d.isTouched then
    request (Repository.commit d.book d.loadedVersion d.loadedStage d.now)
  else if d.stage ≠ d.loadedStage then
    discard (request (Repository.moveStage d.book.run.id d.loadedStage d.stage d.now))

def publish (terms : Terms) (store : StoreId) (events : List Event) : Work Unit :=
  giveOut (events.map (·.nameStore (terms.directory.stores.find? store)))

/-- Handles a command from beginning to end. -/
def handle (terms : Terms) (run : RunId) (command : Command) (now : Instant) : Work Reply := do
  let book ← loadFor terms run command.user now
  let (d, reply) ← execute terms command book now
  commit d
  publish terms book.run.store d.events
  return reply

/-! ## Runs without a future -/

/-- Whether a run has ended or does not exist. A store that does not answer leaves it open. -/
def isRetired (run : RunId) (now : Instant) : Work Bool := do
  match ← attempt (Repository.load run now) with
  | .ok book => return book.run.stage.isTerminal
  | .error (.unknown _) => return true
  | .error _ => return false

end Desk

end BuyingClub
