import BuyingClub.Desk

/-!
# The service

The service gives every run that gets a command a worker of its own. A worker that crashed stays
until the next command for its run replaces it. Reading a run needs no worker.
-/

namespace BuyingClub

structure Worker where
  run : RunId
  isAlive : Bool
deriving DecidableEq

structure Service where
  terms : Terms
  desk : Desk
  /-- At most one per run. -/
  workers : List Worker

namespace Service

/-! ## Opening -/

/-- A service over a repository, with identifiers from one on. -/
def start (terms : Terms) (repository : Repository) : Service where
  terms
  desk := ⟨repository, .start, []⟩
  workers := []

/-- A service with a store of its own, which has a mailbox like those of the workers. -/
def withOwnStore? (terms : Terms) : Option Service :=
  (Repository.withCapacity? terms.limits.mailboxSize).map (start terms)

variable (s : Service)

/-- Does work at the desk. -/
def work {α : Type} (task : Work α) : Except Interruption α × Service :=
  let (result, desk) := task.run.run s.desk
  (result, { s with desk })

/-- A service over the same repository without any workers, with identifiers from after those in
use. -/
def resume (now : Instant) : Except Interruption Unit × Service :=
  match s.work (Desk.request (Repository.watermark now)) with
  | (.ok mark, s) =>
    (.ok (), { s with desk := { s.desk with counters := .startingAfter mark }, workers := [] })
  | (.error why, s) => (.error why, s)

/-! ## Workers -/

def dismiss (run : RunId) : Service :=
  { s with workers := s.workers.filter (·.run ≠ run) }

/-- Makes sure that the run has a live worker. -/
def engage (run : RunId) : Service :=
  if s.workers.any fun w => w.run = run && w.isAlive then s
  else { s.dismiss run with workers := (s.dismiss run).workers ++ [⟨run, true⟩] }

def markDead (run : RunId) : Service :=
  { s with
    workers := s.workers.map fun w => if w.run = run then { w with isAlive := false } else w }

/-- The number of runs with a worker. -/
def activeRuns : Nat := s.workers.length

/-- Dismisses all workers; fails if one of them had crashed. -/
def shutdown : Except WorkerFailure Unit × Service :=
  (if s.workers.all (·.isAlive) then .ok () else .error (.crashed "worker crashed"),
    { s with workers := [] })

/-! ## Requests without a worker -/

def createRun (group : GroupId) (store : StoreId) (leader : UserId) (now : Instant) :
    Except Interruption OrderBook × Service :=
  s.work (Desk.createRun s.terms group store leader now)

/-- The order book of a run, as stored. -/
def snapshot (run : RunId) (user : UserId) (now : Instant) :
    Except Interruption OrderBook × Service :=
  s.work (Desk.loadFor s.terms run user now)

def pickupSheet (run : RunId) (user : UserId) (now : Instant) :
    Except Interruption (List PickupRow) × Service :=
  s.work (Desk.pickupSheet s.terms run user now)

def listRuns (group : GroupId) (user : UserId) (now : Instant) :
    Except Interruption (List Run) × Service :=
  s.work (Desk.listRuns s.terms group user now)

end Service

end BuyingClub
