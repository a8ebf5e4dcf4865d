import BuyingClub.Service

/-!
# Submitting commands

Commands for one run wait in the mailbox of its worker, which handles them in their order. The
worker leaves when its run has ended, or when a command failed and the run turns out to have ended
or not to exist; what is in its mailbox by then it still handles. The worker of a crashed command
is lost with its mailbox. Commands that found no room in the mailbox go to the next worker, once.
-/

namespace BuyingClub

/-- What the caller of a command gets. -/
abbrev Answer := Except Interruption Reply

/-- A failure on the side of the worker. -/
def Answer.failed (why : WorkerFailure) : Answer := .error (.refused (.worker why))

/-- How a worker goes on after a command. -/
inductive Worker.Course where
  | stays | leaves | crashes
deriving DecidableEq

/-- What came of one command. -/
structure Turn where
  answer : Answer
  course : Worker.Course
  /-- Whether the worker had to wait for the store. -/
  waited : Bool

/-- What came of the commands that were handed to a worker. -/
structure Shift where
  answers : List Answer
  /-- The last of the commands, if the worker was gone before there was room for them. -/
  unserved : List Command
  service : Service

namespace Service

variable (s : Service)

/-- The room in the mailbox of a worker. -/
def room : Nat := max 1 s.terms.limits.mailboxSize

/-- Whether workers can be given a mailbox. -/
def canHire : Bool := Mailbox.isCapacity s.room

/-! ## One command -/

/-- A worker handles a command. -/
def attend (run : RunId) (command : Command) (now : Instant) : Turn × Service :=
  let waited := s.desk.repository.reachesStore .load
  match s.work (Desk.handle s.terms run command now) with
  | (.ok reply, s) => (⟨.ok reply, if reply.isFinal then .leaves else .stays, waited⟩, s)
  | (.error .crashed, s) => (⟨.failed .dropped, .crashes, waited⟩, s)
  | (.error (.refused why), s) =>
    let waited := waited || s.desk.repository.reachesStore .load
    match s.work (Desk.isRetired run now) with
    | (.ok isOver, s) =>
      (⟨.error (.refused why), if isOver then .leaves else .stays, waited⟩, s)
    | (.error _, s) => (⟨.failed .dropped, .crashes, waited⟩, s)

/-- What becomes of the worker of a run. -/
def follow (run : RunId) : Worker.Course → Service
  | .stays => s
  | .leaves => s.dismiss run
  | .crashes => s.markDead run

/-- Has a command done by the worker of its run. The caller crashes if there can be no worker. -/
def submit (run : RunId) (command : Command) (now : Instant) : Answer × Service :=
  if s.canHire then
    let (turn, s) := (s.engage run).attend run command now
    (turn.answer, s.follow run turn.course)
  else (.error .crashed, s)

/-! ## Several commands -/

def dropAll (commands : List Command) : List Answer := commands.map fun _ => .failed .dropped

/-- A worker that has left handles what is in its mailbox. -/
def drain (run : RunId) (now : Instant) : List Command → Service → List Answer × Service
  | [], s => ([], s)
  | command :: rest, s =>
    let (turn, s) := s.attend run command now
    if turn.course = .crashes then (turn.answer :: dropAll rest, s)
    else
      let (answers, s) := drain run now rest s
      (turn.answer :: answers, s)

/-- The worker of the run serves commands, of which so many are in its mailbox. The others get in
while the worker waits, be it for the store or for a command. -/
def serve (run : RunId) (now : Instant) : List Command → Nat → Service → Shift
  | [], _, s => ⟨[], [], s⟩
  | command :: rest, delivered, s =>
    let (turn, s) := s.attend run command now
    let s := s.follow run turn.course
    let delivered := if turn.waited then s.room else delivered - 1
    match turn.course with
    | .stays =>
      let shift := serve run now rest (if delivered = 0 then s.room else delivered) s
      { shift with answers := turn.answer :: shift.answers }
    | .leaves =>
      let (answers, s) := drain run now (rest.take delivered) s
      ⟨turn.answer :: answers, rest.drop delivered, s⟩
    | .crashes => ⟨turn.answer :: dropAll (rest.take delivered), rest.drop delivered, s⟩

/-- Hands commands to the worker of the run. -/
def hand (run : RunId) (commands : List Command) (now : Instant) : Shift :=
  if commands.isEmpty then ⟨[], [], s⟩ else serve run now commands s.room (s.engage run)

/-- Has several commands for one run done, which are all submitted before one is handled. -/
def submitAll (run : RunId) (commands : List Command) (now : Instant) : List Answer × Service :=
  if s.canHire then
    let first := s.hand run commands now
    let second := first.service.hand run first.unserved now
    (first.answers ++ second.answers ++ second.unserved.map fun _ => .failed .closed,
      if second.unserved.isEmpty then second.service else second.service.dismiss run)
  else (commands.map fun _ => .error .crashed, s)

end Service

end BuyingClub
