import LockManager.Namespace.Dispatch

set_option autoImplicit false

/-!
The stretches of an operation that nothing can come between. Those that take a resource `r` need its
queues, and the operation may have to wait for them; the others need nothing.
-/

namespace LockManager

structure LockRequest where
  key : Key
  mode : Mode
  policy : Policy := .plain
  owner : Owner
  clientSeq : Option UInt64 := none
  deriving DecidableEq, Repr

/-- How a lock stands, as told to whoever asked for it. -/
structure Reply where
  handle : Handle
  state : LockState
  grantedMode : Option Mode
  deriving DecidableEq, Repr

inductive ConvertStatus where
  | granted
  | pending
  deriving DecidableEq, Repr

def ConvertStatus.name : ConvertStatus → String
  | .granted => "granted"
  | .pending => "pending"

inductive Registration where
  | fresh (l : LockId)
  | replay (l : LockId)
  deriving DecidableEq, Repr

namespace Namespace

def reply (ns : Namespace) (l : LockId) : Reply :=
  { handle := (ns.lock l).handle, state := (ns.lock l).state, grantedMode := (ns.lock l).grantedMode }

/-! ### Coming -/

/-- The live lock that an earlier copy of the request made. -/
def replayOf? (ns : Namespace) (req : LockRequest) : Option LockId := do
  let seq ← req.clientSeq
  let h ← ns.replays.get? (req.owner, seq)
  ns.handles.get? h

/-- Makes a new lock, bound to the resource under the request's key. -/
def addLock (ns : Namespace) (req : LockRequest) : LockId × Namespace :=
  let (r, ns) := ns.findOrCreate req.key
  let l := ns.locks.size
  let h := ns.handles.upcoming
  let claim : Claim :=
    { id := l, handle := h, owner := req.owner, policy := req.policy, clientSeq := req.clientSeq }
  (l,
    { ns with
      locks := ns.locks.alloc (.create claim req.mode r req.key ns.config.historyDepth)
      handles := ns.handles.insertWith fun _ => l
      replays :=
        match req.clientSeq with
        | some seq => ns.replays.insert (req.owner, seq) h
        | none => ns.replays })

def register (ns : Namespace) (req : LockRequest) : Except LockError (Registration × Namespace) := do
  ns.ensureRunning
  if let some fault := req.policy.fault? then throw (.invalidRequest fault.message)
  if req.owner.name.isEmpty then throw (.invalidRequest "owner is required")
  match ns.replayOf? req with
  | some l => return (.replay l, ns)
  | none =>
    let (l, ns) := ns.addLock req
    return (.fresh l, ns)

/-! ### Holding a resource's queues -/

def arbiter (ns : Namespace) (r : ResourceId) : Arbiter :=
  { config := ns.config, now := ns.clock, queues := (ns.resource r).queues, locks := ns.locks }

/-- Takes over what was decided on `r` and schedules the locks that were sent messages. -/
def conclude (ns : Namespace) (r : ResourceId) (a : Arbiter) : Namespace :=
  ({ ns with
      locks := a.locks
      resources := ns.resources.modify r ({ · with queues := a.queues }) }).dispatch a.touched

/-- Brings a new lock to the queues. A lock whose cancel has begun stays as it is. -/
def submit (ns : Namespace) (l : LockId) (r : ResourceId) : Except LockError (Reply × Namespace) := do
  ns.ensureRunning
  let lock := ns.lock l
  if lock.state.leaving then return (ns.reply l, ns)
  match lock.advance? .enqueued with
  | none => throw (.protocolViolation lock.handle lock.state .enqueue)
  | some entered =>
    let a := (ns.arbiter r).modifyLock l fun _ => entered
    let ns := ns.conclude r (a.receive lock.claim lock.requestedMode)
    return (ns.reply l, ns)

/-- Asks for another mode. The old one is held until the new one is granted. -/
def changeMode (ns : Namespace) (l : LockId) (mode : Mode) (r : ResourceId) :
    Except LockError (ConvertStatus × Namespace) := do
  let lock := ns.lock l
  let refusal := LockError.protocolViolation lock.handle lock.state .convert
  match lock.grantedMode, lock.advance? .converting with
  | some held, some entered =>
    if held = mode then return (.granted, ns)
    let a := (ns.arbiter r).modifyLock l fun _ => { entered with requestedMode := mode, bypassed := 0 }
    if a.opposed lock.claim mode then
      let a := (a.modifyQueues (·.addConverting ⟨lock.claim, mode⟩)).askHolders lock.claim mode
      return (.pending, ns.conclude r a)
    else
      match a.convert? lock.claim mode false with
      | some a => return (.granted, ns.conclude r a.reprocess)
      | none => throw refusal
  | _, _ => throw refusal

/-- Tells those who may have changed what is cached under `r`. -/
def ask (ns : Namespace) (r : ResourceId) (requester : Owner) : Nat × Namespace :=
  let (a, n) := (ns.arbiter r).glimpse requester
  (n, ns.conclude r a)

/-! ### Going -/

/-- Records that the lock is to go, if it is the first to be told so. -/
def mark? (ns : Namespace) (l : LockId) : Option Namespace :=
  ((ns.lock l).advance? .canceling).map fun lock => ns.modifyLock l fun _ => lock

/-- Forgets that the lock answered a numbered request. -/
def dropReplay (ns : Namespace) (claim : Claim) : Namespace :=
  match claim.clientSeq with
  | some seq =>
    if ns.replays.get? (claim.owner, seq) = some claim.handle then
      { ns with replays := ns.replays.erase (claim.owner, seq) }
    else ns
  | none => ns

/-- Takes a marked lock out of the queues, looks at the resource again and retires the handle. -/
def leave (ns : Namespace) (l : LockId) (r : ResourceId) : Namespace :=
  let a := (ns.arbiter r).modifyQueues (·.remove l)
  let a := a.modifyLock l fun lock =>
    { (lock.advance? .canceled).getD lock with
      grantedMode := none, blockingSentAt := none, pending := [] }
  let ns := ns.conclude r a.reprocess
  let claim := (ns.lock l).claim
  let ns := ns.dropReplay claim
  { ns.modifyLock l ({ · with retired := true }) with handles := ns.handles.remove claim.handle }

/-- Nothing is told to the owners of these locks any more. -/
def silence (ns : Namespace) (ls : List LockId) : Namespace :=
  ls.foldl (fun ns l => ns.modifyLock l Lock.suppress) ns

def forget (ns : Namespace) (owner : Owner) : Namespace :=
  { ns with replays := ns.replays.restrict fun k => decide (k.1 ≠ owner) }

/-! ### Moving -/

/-- Binds a new lock to `target` instead, and gives the resource that has lost a reference by that:
the old one, or `target` itself if the lock is not new. -/
def move (ns : Namespace) (l : LockId) (target : ResourceId) :
    Except LockError Unit × ResourceId × Namespace :=
  let lock := ns.lock l
  if lock.state = .new then
    (.ok (), lock.resource,
      ns.modifyLock l ({ · with resource := target, key := (ns.resource target).key }))
  else (.error (.protocolViolation lock.handle lock.state .rebind), target, ns)

end Namespace
end LockManager
