import LockManager.Scheduler
import LockManager.Wire.Response

set_option autoImplicit false

/-!
A namespace in time. The transport takes the same time for every message and then delivers it, unless
the owner cannot be reached by then. Holders that do not give way are looked for at fixed intervals.
What is due at one instant is done in the order in which it was begun.
-/

namespace LockManager

structure Delivered where
  time : Nat
  owner : Owner
  notification : Notification
  deriving DecidableEq, Repr

structure Report where
  time : Nat
  owner : Owner
  reason : Grievance
  deriving DecidableEq, Repr

structure Session where
  scheduler : Scheduler
  /-- Time that the transport takes. -/
  delay : Nat
  unreachable : List Owner := []
  nextSweep : Option Nat
  /-- Operations that were begun as tasks. -/
  begun : List (TaskId × Operation) := []
  /-- Handles in the order in which they were issued. -/
  issued : List Handle := []
  /-- How many of the tasks that ended have had their handles noted. -/
  noted : Nat := 0
  delivered : List Delivered := []
  reports : List Report := []

namespace Session

def create (config : Config) (delay : Nat) : Except LockError Session :=
  (Namespace.create config).map fun ns =>
    { scheduler := { space := ns }
      delay
      nextSweep := if config.sweepInterval = 0 then none else some config.sweepInterval }

def space (s : Session) : Namespace := s.scheduler.space

def setSpace (s : Session) (ns : Namespace) : Session :=
  { s with scheduler := s.scheduler.setSpace ns }

def now (s : Session) : Nat := s.space.clock

def setNow (s : Session) (t : Nat) : Session := s.setSpace { s.space with clock := t }

def report (s : Session) (reports : List (Owner × Grievance)) : Session :=
  { s with
    reports := s.reports ++ reports.map fun (owner, reason) => { time := s.now, owner, reason } }

/-! ### Work that goes on by itself -/

def checkTimeouts (s : Session) : Nat × Session :=
  let (reports, ns) := s.space.checkTimeouts
  (reports.length, (s.setSpace ns).report reports)

/-- The transport's time for `d` is over. -/
def finish (s : Session) (d : Delivery) : Session :=
  let lock := s.space.lock d.lock
  let owner := lock.claim.owner
  let s :=
    if owner ∈ s.unreachable then
      s.report [(owner, .ofObstacle lock.handle owner .unreachable)]
    else
      { s with
        delivered := s.delivered ++ [{ time := s.now, owner, notification := d.notification }] }
  s.setSpace (s.space.finish d)

/-- The time of the next look at the holders, while the namespace runs. -/
def sweepTime? (s : Session) : Option Nat := if s.space.stopping then none else s.nextSweep

def sweep (s : Session) (t : Nat) : Session :=
  { s.checkTimeouts.2 with nextSweep := some (t + s.space.config.sweepInterval) }

/-- The delivery begun first. -/
def firstDelivery? (s : Session) : Option Delivery := s.space.dispatcher.deliveries.head?

/-- Does one piece of the work that is due, if any is. -/
def work? (s : Session) : Option Session :=
  match s.space.takeUp? with
  | some ns => some (s.setSpace ns)
  | none =>
    let sweepDue := s.sweepTime?.filter (· ≤ s.now)
    let deliveryDue := s.firstDelivery?.filter (·.begun + s.delay ≤ s.now)
    match sweepDue, deliveryDue with
    | none, none => none
    | none, some d => some (s.finish d)
    | some t, none => some (s.sweep t)
    | some t, some d =>
      if d.begun + s.space.config.sweepInterval < t then some (s.finish d) else some (s.sweep t)

/-- Does work until none is due. -/
def workOff : Nat → Session → Session
  | 0, s => s
  | fuel + 1, s =>
    match s.work? with
    | some s => workOff fuel s
    | none => s

/-- Messages that have not been answered for. -/
def backlog (s : Session) : Nat :=
  s.space.locks.records.foldl (fun n l => n + l.pending.length) 0 +
    s.space.dispatcher.queue.length + s.space.dispatcher.deliveries.length

def outcome? (s : Session) (i : TaskId) : Option Outcome := (s.scheduler.task i).outcome

def issue (s : Session) (h : Option Handle) : Session := { s with issued := s.issued ++ h.toList }

/-- Notes the handles that tasks have issued by ending. -/
def noteEnded (s : Session) : Session :=
  let ended := s.scheduler.ended
  let handle? (i : TaskId) : Option Handle := do (← s.begun.lookup i).issued? (← s.outcome? i)
  { s with issued := s.issued ++ (ended.drop s.noted).filterMap handle?, noted := ended.length }

/-- Lets the tasks go on as far as they can. -/
def runTasks (s : Session) : Session := noteEnded { s with scheduler := s.scheduler.run }

/-- Finishes all work that is due now: a message is taken up and answered for, and there is at most
one look at the holders. -/
def background (s : Session) : Session :=
  let s := s.runTasks
  (workOff (2 * s.backlog + 2) s).runTasks

/-- When the next piece of work is due. -/
def nextEvent? (s : Session) : Option Nat :=
  match s.sweepTime?, s.firstDelivery?.map (·.begun + s.delay) with
  | some t, some u => some (min t u)
  | some t, none | none, some t => some t
  | none, none => none

/-! ### Time -/

/-- Lets time pass up to `target`. -/
def passUntil (target : Nat) : Nat → Session → Session
  | 0, s => s.setNow target
  | fuel + 1, s =>
    match s.nextEvent?.filter (· ≤ target) with
    | some t => passUntil target fuel ((s.setNow (max t s.now)).background)
    | none => s.setNow target

/-- The clock stops at every message and at every look at the holders. -/
def sleep (s : Session) (duration : Nat) : Session :=
  let s := s.background
  let looks := if s.space.config.sweepInterval = 0 then 0 else duration / s.space.config.sweepInterval
  passUntil (s.now + duration) (s.backlog + looks + 2) s

/-- Lets time pass until `done`, from one event to the next. -/
def passTill (done : Session → Bool) : Nat → Session → Session
  | 0, s => s
  | fuel + 1, s =>
    if done s then s
    else
      match s.nextEvent? with
      | some t => passTill done fuel ((s.setNow (max t s.now)).background)
      | none => s

/-- Events until every message has been answered for. -/
def eventsLeft (s : Session) : Nat :=
  let looks := if s.space.config.sweepInterval = 0 then 0 else s.delay / s.space.config.sweepInterval
  (s.backlog + 1) * (looks + 2)

/-- Waits until no message is on its way. -/
def settle (s : Session) : Session :=
  let s := s.background
  passTill (·.space.idle) s.eventsLeft s

/-! ### Operations -/

/-- Cancels everything. -/
def beginShutdown (s : Session) : Session := s.setSpace s.space.shutdown

/-- Waits for the messages on their way and closes the dispatcher. -/
def endShutdown (s : Session) : Session :=
  let s := s.settle
  s.setSpace s.space.closeDispatcher

/-- Runs an operation to its end. -/
def perform (s : Session) : Operation → Outcome × Session
  | .shutdown => (.ok .stopped, if s.space.stopping then s else s.beginShutdown.endShutdown)
  | op =>
    let (outcome, ns) := s.space.perform op
    (outcome, (s.setSpace ns).issue (op.issued? outcome))

def serve (s : Session) (peer : Owner) (req : Request) : Response × Session :=
  let (response, ns) := s.space.serve peer req
  let handle? :=
    match response with
    | .enqueued r => some r.handle
    | _ => none
  (response, (s.setSpace ns).issue handle?)

/-- Whether that is news. -/
def setReachable (s : Session) (owner : Owner) (reachable : Bool) : Bool × Session :=
  if reachable then (owner ∈ s.unreachable, { s with unreachable := s.unreachable.filter (· ≠ owner) })
  else if owner ∈ s.unreachable then (false, s)
  else (true, { s with unreachable := s.unreachable ++ [owner] })

/-! ### Operations side by side -/

def finished (s : Session) (i : TaskId) : Bool := (s.scheduler.task i).finished

/-- Keeps a place among the tasks for an operation. -/
def keepPlace (s : Session) : Session := { s with scheduler := s.scheduler.keepPlace }

def placeIsNext (s : Session) : Bool := s.scheduler.placeIsNext

/-- Begins an operation in the place whose turn it is. -/
def beginInPlace (s : Session) (op : Operation) : TaskId × Session :=
  let i := s.scheduler.tasks.size
  (i, { s with scheduler := s.scheduler.beginInPlace op, begun := (i, op) :: s.begun })

def giveUpPlace (s : Session) : Session := { s with scheduler := s.scheduler.giveUpPlace }

/-- Waits until some tasks are finished. -/
def await (s : Session) (tasks : List TaskId) : Session :=
  let s := s.background
  passTill (fun s => tasks.all s.finished) s.eventsLeft s

/-- Gets as far as knowing the resource that a lock is bound to. -/
def beginHold (s : Session) (l : LockId) (role : Role) : TaskId × Session :=
  let (i, scheduler) := s.scheduler.beginHold l role
  (i, { s with scheduler })

/-- Takes the queues of the resource known to task `i`, and keeps them. -/
def endHold (s : Session) (i : TaskId) : Session := { s with scheduler := s.scheduler.seize i }

/-- Lets go of what task `i` keeps. -/
def letGo (s : Session) (i : TaskId) : Session := { s with scheduler := s.scheduler.letGo i }

/-- What is seen while the queues are held that were taken for a lock. -/
structure HoldView where
  holdsBinding : Bool
  /-- The key of the resource whose queues are held. -/
  heldKey : Key
  lockKey : Key
  deriving DecidableEq, Repr

def holdView (s : Session) (i : TaskId) (l : LockId) : HoldView :=
  { holdsBinding := .binding l ∈ s.scheduler.holds i
    heldKey := (s.space.resource ((s.scheduler.heldBy? i).getD 0)).key
    lockKey := (s.space.lock l).key }

/-! ### The record of what was delivered and reported -/

/-- By time, and at one time by handle. -/
def orderedBy {α : Type} (time : α → Nat) (handle : α → Handle) (xs : List α) : List α :=
  xs.mergeSort fun a b =>
    time a < time b || (time a == time b && (handle a).cookie ≤ (handle b).cookie)

/-- What has been delivered and reported since the record was last taken. -/
def takeRecord (s : Session) : List Delivered × List Report × Session :=
  (orderedBy Delivered.time (·.notification.handle) s.delivered,
    orderedBy Report.time (·.reason.handle) s.reports,
    { s with delivered := [], reports := [] })

end Session

end LockManager
