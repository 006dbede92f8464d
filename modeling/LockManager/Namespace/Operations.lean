import LockManager.Namespace.Stages

set_option autoImplicit false

/-!
The operations of a namespace, each run to its end with nothing in between. An operation that answers
with an error may still have to tidy up, so all of them give a namespace back.
-/

namespace LockManager
namespace Namespace

/-- Cancels a lock unless its cancel has begun already. -/
def cancelLock (ns : Namespace) (l : LockId) : Namespace :=
  match ns.mark? l with
  | none => ns
  | some ns =>
    let r := (ns.lock l).resource
    (ns.leave l r).release r

/-- Makes a lock and tries to grant it. A repeated numbered request is answered with the lock of the
first. -/
def enqueue (ns : Namespace) (req : LockRequest) : Except LockError Reply × Namespace :=
  match ns.register req with
  | .error e => (.error e, ns)
  | .ok (.replay l, ns) => (.ok (ns.reply l), ns)
  | .ok (.fresh l, ns) =>
    match ns.submit l (ns.lock l).resource with
    | .ok (reply, ns) => (.ok reply, ns)
    | .error e => (.error e, (ns.silence [l]).cancelLock l)

/-- Makes a lock without bringing it to the queues. -/
def createLock (ns : Namespace) (req : LockRequest) : Except LockError Handle × Namespace :=
  match ns.register req with
  | .error e => (.error e, ns)
  | .ok (.replay l, ns) | .ok (.fresh l, ns) => (.ok (ns.lock l).handle, ns)

/-- Brings a lock made by `createLock` to the queues. -/
def enqueueLock (ns : Namespace) (h : Handle) : Except LockError Reply × Namespace :=
  match ns.lookup h with
  | .error e => (.error e, ns)
  | .ok l =>
    match ns.submit l (ns.lock l).resource with
    | .ok (reply, ns) => (.ok reply, ns)
    | .error e => (.error e, ns)

def convert (ns : Namespace) (h : Handle) (mode : Mode) : Except LockError ConvertStatus × Namespace :=
  match ns.ensureRunning, ns.lookup h with
  | .error e, _ | .ok (), .error e => (.error e, ns)
  | .ok (), .ok l =>
    match ns.changeMode l mode (ns.lock l).resource with
    | .ok (status, ns) => (.ok status, ns)
    | .error e => (.error e, ns)

/-- A handle that was canceled before is as good as one canceled now. -/
def cancel (ns : Namespace) (h : Handle) : Except LockError LockState × Namespace :=
  match ns.handles.status h with
  | .live l => (.ok .canceled, ns.cancelLock l)
  | .retired => (.ok .canceled, ns)
  | .unknown => (.error (.invalidHandle h), ns)

/-- Binds a new lock to the resource under `k` instead. -/
def rebind (ns : Namespace) (h : Handle) (k : Key) : Except LockError Unit × Namespace :=
  match ns.lookup h with
  | .error e => (.error e, ns)
  | .ok l =>
    match ns.config.role with
    | .server => (.error (.protocolViolation h (ns.lock l).state .rebind), ns)
    | .client =>
      let (target, ns) := ns.findOrCreate k
      let (answer, unneeded, ns) := ns.move l target
      (answer, ns.release unneeded)

/-- Asks everyone who may have changed what is cached under `k`, and counts them. -/
def glimpse (ns : Namespace) (k : Key) (requester : Owner) : Except LockError Nat × Namespace :=
  match ns.ensureRunning with
  | .error e => (.error e, ns)
  | .ok () =>
    match ns.find? k with
    | none => (.ok 0, ns)
    | some (r, ns) =>
      let (n, ns) := ns.ask r requester
      (.ok n, ns.release r)

/-- Cancels every lock of `owner` without telling it anything, and counts them. -/
def evictOwner (ns : Namespace) (owner : Owner) : Nat × Namespace :=
  let victims := ns.ownedBy owner
  let ns := victims.foldl cancelLock (ns.silence victims)
  (victims.length, ns.forget owner)

/-- Reports holders that have not given way in time, each once per grant. -/
def checkTimeouts (ns : Namespace) : List (Owner × Grievance) × Namespace :=
  ns.live.foldl
    (fun (reports, ns) l =>
      let lock := ns.lock l
      match lock.overdue? ns.clock ns.config.blockingTimeout with
      | some waited =>
        (reports ++ [(lock.claim.owner, .overdue lock.handle waited)],
          ns.modifyLock l ({ · with timeoutReported := true }))
      | none => (reports, ns))
    ([], ns)

/-- From now on requests are refused and the owners of the locks are told nothing. -/
def beginShutdown (ns : Namespace) : Namespace :=
  { ns.silence ns.live with stopping := true }

/-- Cancels every lock. A second shutdown has no effect. -/
def shutdown (ns : Namespace) : Namespace :=
  if ns.stopping then ns else ns.live.foldl cancelLock ns.beginShutdown

end Namespace
end LockManager
