import LockManager.Namespace.Operations

set_option autoImplicit false

/-!
The operations of a namespace and their answers as data.
-/

namespace LockManager

inductive Operation where
  | enqueue (req : LockRequest)
  | create (req : LockRequest)
  | enqueueLock (handle : Handle)
  | convert (handle : Handle) (mode : Mode)
  | cancel (handle : Handle)
  | rebind (handle : Handle) (key : Key)
  | glimpse (key : Key) (requester : Owner)
  | evict (owner : Owner)
  | shutdown
  /-- Looks at the resource under a key. -/
  | inspect (key : Key)
  /-- Looks at the resource of a lock. -/
  | inspectAt (handle : Handle)
  /-- Looks at all resources, one after another in order of their keys. -/
  | survey
  deriving DecidableEq, Repr

inductive Answer where
  | enqueued (reply : Reply)
  | created (handle : Handle)
  | converted (status : ConvertStatus)
  | canceled (state : LockState)
  | rebound
  | glimpsed (queued : Nat)
  | evicted (locks : Nat)
  | stopped
  | seen (resources : List Resource)
  deriving DecidableEq, Repr

abbrev Outcome := Except LockError Answer

/-- The handle of the lock that the operation has made. -/
def Operation.issued? : Operation → Outcome → Option Handle
  | .enqueue _, .ok (.enqueued r) => some r.handle
  | .create _, .ok (.created h) => some h
  | _, _ => none

namespace Namespace

/-- Runs an operation to its end with nothing in between. -/
def perform (ns : Namespace) : Operation → Outcome × Namespace
  | .enqueue req =>
    let (answer, ns) := ns.enqueue req
    (answer.map .enqueued, ns)
  | .create req =>
    let (answer, ns) := ns.createLock req
    (answer.map .created, ns)
  | .enqueueLock h =>
    let (answer, ns) := ns.enqueueLock h
    (answer.map .enqueued, ns)
  | .convert h mode =>
    let (answer, ns) := ns.convert h mode
    (answer.map .converted, ns)
  | .cancel h =>
    let (answer, ns) := ns.cancel h
    (answer.map .canceled, ns)
  | .rebind h k =>
    let (answer, ns) := ns.rebind h k
    (answer.map fun _ => .rebound, ns)
  | .glimpse k requester =>
    let (answer, ns) := ns.glimpse k requester
    (answer.map .glimpsed, ns)
  | .evict owner =>
    let (n, ns) := ns.evictOwner owner
    (.ok (.evicted n), ns)
  | .shutdown => (.ok .stopped, ns.shutdown)
  | .inspect k => (.ok (.seen ((ns.index.get? k).toList.map ns.resource)), ns)
  | .inspectAt h =>
    ((ns.lookup h).map fun l => .seen [ns.resource (ns.lock l).resource], ns)
  | .survey => (.ok (.seen (ns.indexed.map ns.resource)), ns)

end Namespace

end LockManager
