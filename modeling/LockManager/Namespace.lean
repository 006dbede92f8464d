import LockManager.Arbiter
import LockManager.HandleTable
import LockManager.Index

set_option autoImplicit false

/-!
A namespace: the resources and locks of one role, the handles that name the locks, and the messages
on their way to the owners. A resource is in the index while something refers to it.
-/

namespace LockManager

structure Resource where
  key : Key
  /-- Locks bound to it and look-ups in progress. -/
  refs : Nat := 0
  queues : Queues := {}
  deriving DecidableEq, Repr, Inhabited

/-- A message that the transport has and has not answered for. -/
structure Delivery where
  lock : LockId
  notification : Notification
  begun : Nat
  deriving DecidableEq, Repr

/-- Hands the messages of each scheduled lock to the transport, one after another. -/
structure Dispatcher where
  /-- Scheduled locks that no worker has taken up, first come first. -/
  queue : List LockId := []
  /-- What the busy workers are delivering. -/
  deliveries : List Delivery := []
  /-- Locks scheduled or being worked on. -/
  outstanding : Nat := 0
  closed : Bool := false
  deriving Repr

structure Namespace where
  config : Config
  clock : Nat := 0
  stopping : Bool := false
  locks : Arena Lock := {}
  resources : Arena Resource := {}
  index : Index Key ResourceId := {}
  handles : HandleTable LockId := {}
  /-- The handle that answered each numbered request of an owner. -/
  replays : Index (Owner × UInt64) Handle := {}
  dispatcher : Dispatcher := {}

namespace Namespace

/-- Refuses settings that cannot be used. -/
def create (config : Config) : Except LockError Namespace :=
  match config.fault? with
  | some fault => .error (.ofConfig fault)
  | none => .ok { config }

def lock (ns : Namespace) (l : LockId) : Lock := ns.locks.get l

def modifyLock (ns : Namespace) (l : LockId) (f : Lock → Lock) : Namespace :=
  { ns with locks := ns.locks.modify l f }

def resource (ns : Namespace) (r : ResourceId) : Resource := ns.resources.get r

def modifyResource (ns : Namespace) (r : ResourceId) (f : Resource → Resource) : Namespace :=
  { ns with resources := ns.resources.modify r f }

/-- The next lock's arrival number. -/
def nextSeq (ns : Namespace) : Nat := ns.locks.size + 1

def ensureRunning (ns : Namespace) : Except LockError Unit :=
  if ns.stopping then .error (.shuttingDown ns.config.name) else .ok ()

def lookup (ns : Namespace) (h : Handle) : Except LockError LockId :=
  match ns.handles.get? h with
  | some l => .ok l
  | none => .error (.invalidHandle h)

/-! ### References to resources -/

def addRef (ns : Namespace) (r : ResourceId) : Namespace :=
  ns.modifyResource r fun res => { res with refs := res.refs + 1 }

def dropRef (ns : Namespace) (r : ResourceId) : Namespace :=
  ns.modifyResource r fun res => { res with refs := res.refs - 1 }

/-- The resource under `k`, made if there is none. The caller has a reference to it. -/
def findOrCreate (ns : Namespace) (k : Key) : ResourceId × Namespace :=
  match ns.index.get? k with
  | some r => (r, ns.addRef r)
  | none =>
    (ns.resources.size,
      { ns with
        resources := ns.resources.alloc { key := k, refs := 1 }
        index := ns.index.insert k ns.resources.size })

/-- The resource under `k`, if there is one. The caller has a reference to it. -/
def find? (ns : Namespace) (k : Key) : Option (ResourceId × Namespace) :=
  (ns.index.get? k).map fun r => (r, ns.addRef r)

/-- Indexed resources in order of their keys. -/
def indexed (ns : Namespace) : List ResourceId :=
  (ns.index.entries.mergeSort fun a b => a.1.le b.1).map (·.2)

/-- Takes a resource out of the index if it is still unused and the index still holds it. -/
def reclaim (ns : Namespace) (r : ResourceId) : Namespace :=
  let res := ns.resource r
  if res.refs = 0 && res.queues.isEmpty && ns.index.get? res.key = some r then
    { ns with index := ns.index.erase res.key }
  else ns

/-- Whether dropping a reference to `r` has left none. -/
def unused (ns : Namespace) (r : ResourceId) : Bool := (ns.resource r).refs = 0

/-- Drops a reference and, if it was the last, the resource. -/
def release (ns : Namespace) (r : ResourceId) : Namespace :=
  let ns := ns.dropRef r
  if ns.unused r then ns.reclaim r else ns

/-! ### Locks -/

/-- Live locks in slot order. -/
def live (ns : Namespace) : List LockId := ns.handles.entries

def ownedBy (ns : Namespace) (owner : Owner) : List LockId :=
  ns.live.filter fun l => (ns.lock l).claim.owner = owner

def lockCount (ns : Namespace) : Nat := ns.handles.live

def resourceCount (ns : Namespace) : Nat := ns.index.size

end Namespace

end LockManager
