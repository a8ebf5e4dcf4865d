import BuyingClub.Run

/-!
# Events

What happened to runs. An event goes out only after the change it tells of has been stored.
-/

namespace BuyingClub

inductive Happening where
  | runCreated (leader : UserId)
  | stageChanged (old new : Stage)
  | bidPlaced (user : UserId) (product : ProductId)
  | bidRetracted (user : UserId) (product : ProductId)
  | readyToggled (user : UserId)
  | helperChanged (helper : UserId)
  | purchaseRecorded (user : UserId) (product : ProductId)
  | purchaseUndone (user : UserId) (product : ProductId)
  | bidPickedUp (user : UserId) (product : ProductId)
deriving DecidableEq

namespace Happening

def name : Happening → String
  | runCreated _ => "run_created"
  | stageChanged _ _ => "state_changed"
  | bidPlaced _ _ => "bid_placed"
  | bidRetracted _ _ => "bid_retracted"
  | readyToggled _ => "ready_toggled"
  | helperChanged _ => "helper_changed"
  | purchaseRecorded _ _ => "purchase_recorded"
  | purchaseUndone _ _ => "purchase_undone"
  | bidPickedUp _ _ => "bid_picked_up"

def user? : Happening → Option UserId
  | stageChanged _ _ => none
  | runCreated user | readyToggled user | helperChanged user => some user
  | bidPlaced user _ | bidRetracted user _ | purchaseRecorded user _ | purchaseUndone user _
  | bidPickedUp user _ => some user

def product? : Happening → Option ProductId
  | runCreated _ | stageChanged _ _ | readyToggled _ | helperChanged _ => none
  | bidPlaced _ product | bidRetracted _ product | purchaseRecorded _ product
  | purchaseUndone _ product | bidPickedUp _ product => some product

/-- The old and the new stage of a change of stage. -/
def stages? : Happening → Option (Stage × Stage)
  | stageChanged old new => some (old, new)
  | _ => none

def oldStage? (h : Happening) : Option Stage := h.stages?.map (·.1)

/-- A run is created in planning. -/
def newStage? : Happening → Option Stage
  | runCreated _ => some .planning
  | h => h.stages?.map (·.2)

end Happening

structure Event where
  run : RunId
  group : GroupId
  happening : Happening
  storeName : Option String
  occurredAt : Instant
deriving DecidableEq

namespace Event

def ofRun (run : Run) (happening : Happening) (now : Instant) : Event :=
  ⟨run.id, run.group, happening, none, now⟩

/-- Changes of stage carry the name of the store. -/
def nameStore (storeName : Option String) (e : Event) : Event :=
  if e.happening.stages?.isSome then { e with storeName } else e

end Event

/-! ## Listeners -/

/-- What a listener does with the events it gets. -/
inductive Listener where
  | keeps | logs | fails | crashes
deriving DecidableEq

/-- What becomes of the events, given those who listen. Each listener gets each event by itself, so
one that breaks takes nothing from the others. -/
def delivered (listeners : List Listener) (events : List Event) : List Event :=
  if listeners.contains .keeps then events else []

end BuyingClub
