/-!
# The stages of a run

```text
planning → active → confirmed → shopping → distributing → completed
   ↑_________|  ↑______|           └→ adjusting ┘
```

Every stage but the two last ones can also be left for `cancelled`.
-/

namespace BuyingClub

inductive Stage where
  | planning | active | confirmed | shopping | adjusting | distributing | completed | cancelled
deriving DecidableEq, Inhabited

namespace Stage

def all : List Stage :=
  [planning, active, confirmed, shopping, adjusting, distributing, completed, cancelled]

def name : Stage → String
  | planning => "planning"
  | active => "active"
  | confirmed => "confirmed"
  | shopping => "shopping"
  | adjusting => "adjusting"
  | distributing => "distributing"
  | completed => "completed"
  | cancelled => "cancelled"

def ofName? (name : String) : Option Stage :=
  all.find? fun s => s.name = name

theorem ofName?_name (s : Stage) : ofName? s.name = some s := by
  cases s <;> decide

/-- The place of a stage in the order of their declaration. -/
def rank : Stage → Nat
  | planning => 0
  | active => 1
  | confirmed => 2
  | shopping => 3
  | adjusting => 4
  | distributing => 5
  | completed => 6
  | cancelled => 7

/-- The stages that a run may move to, in the order in which messages list them. -/
def next : Stage → List Stage
  | planning => [active, cancelled]
  | active => [confirmed, planning, cancelled]
  | confirmed => [shopping, active, cancelled]
  | shopping => [adjusting, distributing, cancelled]
  | adjusting => [distributing, cancelled]
  | distributing => [completed, cancelled]
  | completed => []
  | cancelled => []

def canMove (old new : Stage) : Bool := old.next.contains new

def isTerminal (s : Stage) : Bool := s.next.isEmpty

def canCancel (s : Stage) : Bool := s.canMove cancelled

/-- The stages in which bids may be placed and retracted. -/
def isOpen : Stage → Bool
  | planning | active | adjusting => true
  | _ => false

end Stage

end BuyingClub
