import BuyingClub.Event
import BuyingClub.OrderBook
import BuyingClub.Refusal

/-!
# Drafts

A command works on a draft of the order book. Nothing of it is seen by others before it is stored.
-/

namespace BuyingClub

structure Draft where
  book : OrderBook
  /-- The version and the stage of the book as it was loaded. -/
  loadedVersion : Nat
  loadedStage : Stage
  /-- Whether more than the stage has changed. -/
  isTouched : Bool
  events : List Event
  counters : Counters
  now : Instant

namespace Draft

def ofBook (book : OrderBook) (counters : Counters) (now : Instant) : Draft where
  book
  loadedVersion := book.run.version
  loadedStage := book.run.stage
  isTouched := false
  events := []
  counters
  now

variable (d : Draft)

def stage : Stage := d.book.run.stage

/-! ## Changes -/

/-- A draft that is stored will be one version after the book that was loaded. -/
def setBook (book : OrderBook) : Draft :=
  { d with book := { book with run.version := d.loadedVersion + 1 } }

/-- The draft with a changed book. -/
def touch (book : OrderBook) : Draft :=
  { d.setBook book with isTouched := true }

def record (happening : Happening) : Draft :=
  { d with events := d.events ++ [.ofRun d.book.run happening d.now] }

def checkMove (new : Stage) : Except Refusal Unit := d.stage.checkMove new

/-- Moves the run to another stage, if the table of stages allows it. -/
def move (new : Stage) : Except Refusal Draft := do
  d.checkMove new
  let moved := d.setBook { d.book with run := d.book.run.enter new d.now }
  return moved.record (.stageChanged d.stage new)

/-! ## Rights and conditions -/

def participationOf (user : UserId) : Except Refusal Participation :=
  match d.book.participationOf? user with
  | some p => .ok p
  | none => .error (.missing (.participationOf user))

def checkLeader (user : UserId) (operation : String) : Except Refusal Unit :=
  if d.book.leader?.any (·.user = user) then .ok () else .error (.forbidden (.leaderOnly operation))

def checkShopper (user : UserId) (operation : String) : Except Refusal Unit :=
  if (d.book.participationOf? user).any (·.mayShop) then .ok ()
  else .error (.forbidden (.shopperOnly operation))

def checkStage (expected : Stage) (operation : String) : Except Refusal Unit :=
  if d.stage = expected then .ok () else .error (.wrongStage operation d.stage)

def checkLive : Except Refusal Unit :=
  if d.stage.isTerminal then .error (.finished d.stage) else .ok ()

end Draft

end BuyingClub
