import BuyingClub.Identifier
import BuyingClub.Instant
import BuyingClub.Stage

/-!
# Runs

A run is one shared shopping trip of a group to one store.
-/

namespace BuyingClub

/-- That a run entered a stage, and when. -/
structure StageEntry where
  stage : Stage
  enteredAt : Instant
deriving DecidableEq

structure Run where
  id : RunId
  group : GroupId
  store : StoreId
  stage : Stage
  /-- Every stage entered, oldest first. -/
  history : List StageEntry
  /-- The number of changes stored so far. -/
  version : Nat
deriving DecidableEq

namespace Run

/-- A run that starts in planning. -/
def start (id : RunId) (group : GroupId) (store : StoreId) (now : Instant) : Run where
  id
  group
  store
  stage := .planning
  history := [⟨.planning, now⟩]
  version := 0

def enter (run : Run) (stage : Stage) (now : Instant) : Run :=
  { run with stage, history := run.history ++ [⟨stage, now⟩] }

/-- When the run last entered the stage, if ever. -/
def enteredAt? (run : Run) (stage : Stage) : Option Instant :=
  (run.history.reverse.find? (·.stage = stage)).map (·.enteredAt)

end Run

end BuyingClub
