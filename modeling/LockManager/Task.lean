import LockManager.Operation

set_option autoImplicit false

/-!
Operations that may be suspended. An operation in progress is the list of stages it has left. Before a
stage it may have to wait for what can be held by one party at a time: the binding of a lock to its
resource, and the queues of a resource. On the server side a binding is read and let go; on the
client side it is kept until the queues are let go, so that a lock cannot move meanwhile.
-/

namespace LockManager

inductive Primitive where
  | binding (l : LockId)
  | queues (r : ResourceId)
  deriving DecidableEq, Repr

inductive Stage where
  /-- Brings a lock to the queues; one that is refused is canceled if `discard`. -/
  | submit (l : LockId) (discard : Bool)
  | changeMode (l : LockId) (mode : Mode)
  /-- Begins a cancel; if one has begun already, waits for its end if `join`. -/
  | mark (l : LockId) (join : Bool)
  | leave (l : LockId)
  | awaitRetired (l : LockId)
  | ask (r : ResourceId) (requester : Owner)
  | reclaim (r : ResourceId)
  | move (l : LockId) (target : ResourceId)
  | forget (owner : Owner)
  /-- Waits until no message is on its way, then closes the dispatcher. -/
  | close
  /-- Looks at `r` and then at the others. -/
  | look (r : ResourceId) (others : List ResourceId) (seen : List Resource)
  /-- Looks at the resource of a lock. -/
  | lookAround (l : LockId)
  /-- Keeps the queues of a lock's resource until it is carried out. -/
  | hold (l : LockId) (role : Role)
  deriving DecidableEq, Repr

inductive Need where
  | nothing
  /-- The queues of the resource that a lock is bound to. -/
  | guard (l : LockId) (role : Role)
  | queues (r : ResourceId)
  | binding (l : LockId)
  | retirement (l : LockId)
  | idleness
  deriving DecidableEq, Repr

def Stage.need (role : Role) : Stage → Need
  | .submit l _ | .changeMode l _ | .leave l | .lookAround l => .guard l role
  | .hold l role => .guard l role
  | .ask r _ | .reclaim r | .look r _ _ => .queues r
  | .move l _ => .binding l
  | .awaitRetired l => .retirement l
  | .close => .idleness
  | .mark .. | .forget _ => .nothing

/-- How far a task has got towards its next stage. -/
inductive Place where
  | outside
  /-- It has read that its lock is bound to `r`. -/
  | bound (r : ResourceId)
  /-- It holds the queues of `r`. -/
  | inside (r : ResourceId)
  deriving DecidableEq, Repr

structure Task where
  todo : List Stage := []
  place : Place := .outside
  outcome : Option Outcome := none
  deriving Inhabited

namespace Task

def finished (t : Task) : Bool := t.todo.isEmpty

def answered (outcome : Outcome) : Task := { todo := [], outcome := some outcome }

def need (role : Role) (t : Task) : Need :=
  match t.todo with
  | s :: _ => s.need role
  | [] => .nothing

/-- In the order in which they are let go. -/
def holds (role : Role) (t : Task) : List Primitive :=
  match t.need role, t.place with
  | .guard _ .server, .inside r | .queues _, .inside r => [.queues r]
  | .guard l .client, .inside r => [.queues r, .binding l]
  | .guard l .client, .bound _ | .binding l, .bound _ => [.binding l]
  | _, _ => []

def wants (role : Role) (t : Task) : Option Primitive :=
  match t.need role, t.place with
  | .guard l _, .outside | .binding l, .outside => some (.binding l)
  | .guard _ _, .bound r => some (.queues r)
  | .queues r, .outside => some (.queues r)
  | _, _ => none

/-- Holds the primitive that it wanted. -/
def taking (t : Task) (ns : Namespace) : Primitive → Task
  | .binding l => { t with place := .bound (ns.lock l).resource }
  | .queues r => { t with place := .inside r }

/-- Begins an operation: what can be done before anything has to be waited for. -/
def start (ns : Namespace) : Operation → Task × Namespace
  | .enqueue req =>
    match ns.register req with
    | .error e => (answered (.error e), ns)
    | .ok (.replay l, ns) => (answered (.ok (.enqueued (ns.reply l))), ns)
    | .ok (.fresh l, ns) => ({ todo := [.submit l true] }, ns)
  | .create req =>
    let (answer, ns) := ns.createLock req
    (answered (answer.map .created), ns)
  | .enqueueLock h =>
    match ns.lookup h with
    | .error e => (answered (.error e), ns)
    | .ok l => ({ todo := [.submit l false] }, ns)
  | .convert h mode =>
    match ns.ensureRunning, ns.lookup h with
    | .error e, _ | .ok (), .error e => (answered (.error e), ns)
    | .ok (), .ok l => ({ todo := [.changeMode l mode] }, ns)
  | .cancel h =>
    match ns.handles.status h with
    | .live l => ({ todo := [.mark l true], outcome := some (.ok (.canceled .canceled)) }, ns)
    | .retired => (answered (.ok (.canceled .canceled)), ns)
    | .unknown => (answered (.error (.invalidHandle h)), ns)
  | .rebind h k =>
    match ns.lookup h with
    | .error e => (answered (.error e), ns)
    | .ok l =>
      match ns.config.role with
      | .server => (answered (.error (.protocolViolation h (ns.lock l).state .rebind)), ns)
      | .client =>
        let (target, ns) := ns.findOrCreate k
        ({ todo := [.move l target] }, ns)
  | .glimpse k requester =>
    match ns.ensureRunning with
    | .error e => (answered (.error e), ns)
    | .ok () =>
      match ns.find? k with
      | none => (answered (.ok (.glimpsed 0)), ns)
      | some (r, ns) => ({ todo := [.ask r requester] }, ns)
  | .evict owner =>
    let victims := ns.ownedBy owner
    ({ todo := victims.map (.mark · true) ++ [.forget owner],
       outcome := some (.ok (.evicted victims.length)) }, ns.silence victims)
  | .shutdown =>
    if ns.stopping then (answered (.ok .stopped), ns)
    else
      ({ todo := ns.live.map (.mark · true) ++ [.close], outcome := some (.ok .stopped) },
        ns.beginShutdown)
  | .inspect k =>
    match ns.index.get? k with
    | some r => ({ todo := [.look r [] []] }, ns)
    | none => (answered (.ok (.seen [])), ns)
  | .survey =>
    match ns.indexed with
    | r :: rest => ({ todo := [.look r rest []] }, ns)
    | [] => (answered (.ok (.seen [])), ns)
  | .inspectAt h =>
    match ns.lookup h with
    | .error e => (answered (.error e), ns)
    | .ok l => ({ todo := [.lookAround l] }, ns)

end Task

/-- What a stage leaves: more stages to be done first, and the operation's outcome if it is known. -/
structure Progress where
  space : Namespace
  next : List Stage := []
  outcome : Option Outcome := none

namespace Progress

/-- Drops a reference to `r`; the resource goes if it was the last. -/
def releasing (ns : Namespace) (r : ResourceId) (outcome : Option Outcome) : Progress :=
  let ns := ns.dropRef r
  { space := ns, next := if ns.unused r then [.reclaim r] else [], outcome }

end Progress

namespace Stage

/-- Carries out a stage with the queues of `r` held, if it needs any. -/
def carryOut (ns : Namespace) (r : ResourceId) : Stage → Progress
  | .submit l discard =>
    match ns.submit l r with
    | .ok (reply, ns) => { space := ns, outcome := some (.ok (.enqueued reply)) }
    | .error e =>
      if discard then { space := ns.silence [l], next := [.mark l false], outcome := some (.error e) }
      else { space := ns, outcome := some (.error e) }
  | .changeMode l mode =>
    match ns.changeMode l mode r with
    | .ok (status, ns) => { space := ns, outcome := some (.ok (.converted status)) }
    | .error e => { space := ns, outcome := some (.error e) }
  | .mark l join =>
    match ns.mark? l with
    | some ns => { space := ns, next := [.leave l] }
    | none => { space := ns, next := if join then [.awaitRetired l] else [] }
  | .leave l => .releasing (ns.leave l r) r none
  | .ask r requester =>
    let (n, ns) := ns.ask r requester
    .releasing ns r (some (.ok (.glimpsed n)))
  | .reclaim r => { space := ns.reclaim r }
  | .move l target =>
    let (answer, unneeded, ns) := ns.move l target
    .releasing ns unneeded (some (answer.map fun _ => .rebound))
  | .forget owner => { space := ns.forget owner }
  | .close => { space := ns.closeDispatcher }
  | .look r others seen =>
    let seen := seen ++ [ns.resource r]
    match others with
    | next :: others => { space := ns, next := [.look next others seen] }
    | [] => { space := ns, outcome := some (.ok (.seen seen)) }
  | .lookAround _ => { space := ns, outcome := some (.ok (.seen [ns.resource r])) }
  | .awaitRetired _ | .hold .. => { space := ns }

end Stage

end LockManager
