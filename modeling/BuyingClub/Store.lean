import BuyingClub.OrderBook
import BuyingClub.Refusal

/-!
# The store

The store holds one order book per run. A write names the version and the stage that its writer
read, and is refused if the book has moved on since.
-/

namespace BuyingClub

/-- Books in the order in which they were inserted. -/
structure Store where
  books : List OrderBook

namespace Store

def empty : Store := ⟨[]⟩

variable (store : Store)

def find? (id : RunId) : Option OrderBook :=
  store.books.find? (·.run.id = id)

def replace (book : OrderBook) : Store :=
  ⟨updateFirst (·.run.id = book.run.id) (fun _ => book) store.books⟩

/-! ## Requests -/

def insert (book : OrderBook) : Except StoreRefusal Store :=
  if (store.find? book.run.id).isSome then .error (.taken book.run.id)
  else .ok ⟨store.books ++ [book]⟩

def load (id : RunId) : Except StoreRefusal OrderBook :=
  match store.find? id with
  | none => .error (.unknown id)
  | some book => .ok book

def checkVersion (run : Run) (expected : Nat) : Except StoreRefusal Unit :=
  if run.version = expected then .ok () else .error (.staleVersion expected run.version)

def checkStage (run : Run) (expected : Stage) : Except StoreRefusal Unit :=
  if run.stage = expected then .ok () else .error (.staleStage expected run.stage)

/-- Replaces a book that is still at the expected version and stage, and counts the version up. -/
def commit (book : OrderBook) (version : Nat) (stage : Stage) : Except StoreRefusal Store := do
  let current ← store.load book.run.id
  checkVersion current.run version
  checkStage current.run stage
  return store.replace { book with run.version := version + 1 }

/-- Moves a run that is still in the expected stage, and counts its version up. -/
def moveStage (id : RunId) (expected new : Stage) (now : Instant) :
    Except StoreRefusal (Run × Store) := do
  let current ← store.load id
  checkStage current.run expected
  let run := { current.run.enter new now with version := current.run.version + 1 }
  return (run, store.replace { current with run })

/-- The runs of a group, by identifier. -/
def runsOf (group : GroupId) : List Run :=
  ((store.books.map (·.run)).filter (·.group = group)).mergeSort fun a b => decide (a.id ≤ b.id)

/-- The greatest number in use, kind by kind. -/
def watermark : Watermark :=
  store.books.foldl (fun mark book => mark.max (watermarkOf book)) .zero
where
  greatest (numbers : List Nat) : Nat := numbers.foldl Nat.max 0
  watermarkOf (book : OrderBook) : Watermark :=
    { run := book.run.id.number
      participation := greatest (book.participations.map (·.id.number))
      bid := greatest (book.bids.map (·.id.number))
      item := greatest (book.items.map (·.id.number)) }

end Store

end BuyingClub
