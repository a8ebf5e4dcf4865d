import BuyingClub.Mailbox
import BuyingClub.Store

/-!
# The repository

The store as its users reach it. The store may be gone, and a request may be disturbed: it fails,
it crashes, or another writer gets there first.
-/

namespace BuyingClub

inductive Method where
  | insert | load | commit | moveStage | runsOf | watermark
deriving DecidableEq

inductive Disturbance.Effect where
  | unavailable (reason : String)
  | crash
  /-- Another writer moves the run first, to this stage or to the one it is in. -/
  | race (stage : Option Stage)
deriving DecidableEq

/-- What befalls requests of one kind. -/
structure Disturbance where
  method : Method
  effect : Disturbance.Effect
  /-- How many requests it will still befall; all of them, if there is no number. -/
  remaining : Option Nat
deriving DecidableEq

def Disturbance.isPending (d : Disturbance) (method : Method) : Bool :=
  d.method = method && d.remaining != some 0

/-- Why a request had no result. -/
inductive Breakdown where
  | refused (why : StoreRefusal)
  | crashed
deriving DecidableEq

structure Repository where
  store : Store
  isClosed : Bool
  disturbances : List Disturbance

namespace Repository

def ofStore (store : Store) : Repository := ⟨store, false, []⟩

/-- A repository over an empty store with a mailbox of this capacity, if there can be one. -/
def withCapacity? (capacity : Nat) : Option Repository :=
  if Mailbox.isCapacity capacity then some (ofStore .empty) else none

/-! ## Disturbances -/

/-- The effect on a request, and the repository with one use less of what caused it. -/
def takeEffect (method : Method) (r : Repository) : Option Disturbance.Effect × Repository :=
  match r.disturbances.find? (·.isPending method) with
  | none => (none, r)
  | some d =>
    let used (d : Disturbance) := { d with remaining := d.remaining.map (· - 1) }
    (some d.effect, { r with disturbances := updateFirst (·.isPending method) used r.disturbances })

/-- Whether a request gets to the store. One that does not is answered at once. -/
def reachesStore (method : Method) (r : Repository) : Bool :=
  !r.isClosed && match (r.takeEffect method).1 with
    | some (.unavailable _) | some .crash => false
    | some (.race _) | none => true

/-- Another writer moves the run. -/
def race (run : Option RunId) (stage : Option Stage) (now : Instant) (store : Store) : Store :=
  match run.bind store.find? with
  | none => store
  | some book =>
    match store.moveStage book.run.id book.run.stage (stage.getD book.run.stage) now with
    | .ok (_, store) => store
    | .error _ => store

/-- Puts a request about a run to the store, unless something comes between. -/
def ask {α : Type} (method : Method) (run : Option RunId) (now : Instant)
    (request : Store → Except StoreRefusal (α × Store)) (r : Repository) :
    Except Breakdown α × Repository :=
  if r.isClosed then (.error (.refused (.unavailable "store actor closed")), r)
  else
    match takeEffect method r with
    | (some (.unavailable reason), r) => (.error (.refused (.unavailable reason)), r)
    | (some .crash, r) => (.error .crashed, r)
    | (some (.race stage), r) => answer request { r with store := race run stage now r.store }
    | (none, r) => answer request r
where
  answer (request : Store → Except StoreRefusal (α × Store)) (r : Repository) :
      Except Breakdown α × Repository :=
    match request r.store with
    | .ok (a, store) => (.ok a, { r with store })
    | .error why => (.error (.refused why), r)

/-! ## Requests -/

def insert (book : OrderBook) (now : Instant) : Repository → Except Breakdown Unit × Repository :=
  ask .insert (some book.run.id) now fun store => (store.insert book).map ((), ·)

def load (id : RunId) (now : Instant) : Repository → Except Breakdown OrderBook × Repository :=
  ask .load (some id) now fun store => (store.load id).map (·, store)

def commit (book : OrderBook) (version : Nat) (stage : Stage) (now : Instant) :
    Repository → Except Breakdown Unit × Repository :=
  ask .commit (some book.run.id) now fun store => (store.commit book version stage).map ((), ·)

def moveStage (id : RunId) (expected new : Stage) (now : Instant) :
    Repository → Except Breakdown Run × Repository :=
  ask .moveStage (some id) now fun store => store.moveStage id expected new now

def runsOf (group : GroupId) (now : Instant) :
    Repository → Except Breakdown (List Run) × Repository :=
  ask .runsOf none now fun store => .ok (store.runsOf group, store)

def watermark (now : Instant) : Repository → Except Breakdown Watermark × Repository :=
  ask .watermark none now fun store => .ok (store.watermark, store)

end Repository

end BuyingClub
