import LockManager.Namespace

set_option autoImplicit false

/-!
Handing queued messages to the transport. A lock is scheduled when it has messages and is not
scheduled already; a worker that takes it up delivers its messages one at a time, in order, and is
free again when there are none left. Messages of suppressed locks and of locks whose cancel has
begun are dropped.
-/

namespace LockManager
namespace Namespace

def modifyDispatcher (ns : Namespace) (f : Dispatcher → Dispatcher) : Namespace :=
  { ns with dispatcher := f ns.dispatcher }

/-- A closed dispatcher drops the messages instead. -/
def schedule (ns : Namespace) (l : LockId) : Namespace :=
  let lock := ns.lock l
  if lock.scheduled || lock.pending.isEmpty then ns
  else if ns.dispatcher.closed then ns.modifyLock l ({ · with pending := [] })
  else
    (ns.modifyLock l ({ · with scheduled := true })).modifyDispatcher fun d =>
      { d with queue := d.queue ++ [l], outstanding := d.outstanding + 1 }

def dispatch (ns : Namespace) (touched : List LockId) : Namespace := touched.foldl schedule ns

/-- The worker on `l` hands over the next message, or is done. -/
def drain (ns : Namespace) (l : LockId) : Namespace :=
  let lock := ns.lock l
  match if lock.suppressed || lock.state.leaving then [] else lock.pending with
  | n :: rest =>
    (ns.modifyLock l ({ · with pending := rest })).modifyDispatcher fun d =>
      { d with
        deliveries := d.deliveries ++ [{ lock := l, notification := n, begun := ns.clock }] }
  | [] =>
    (ns.modifyLock l ({ · with pending := [], scheduled := false })).modifyDispatcher fun d =>
      { d with outstanding := d.outstanding - 1 }

/-- A free worker takes up the lock that was scheduled first. -/
def takeUp? (ns : Namespace) : Option Namespace :=
  if ns.dispatcher.deliveries.length < ns.config.workers then
    match ns.dispatcher.queue with
    | l :: rest => some ((ns.modifyDispatcher ({ · with queue := rest })).drain l)
    | [] => none
  else none

/-- The transport has answered for `d`. -/
def finish (ns : Namespace) (d : Delivery) : Namespace :=
  (ns.modifyDispatcher fun x => { x with deliveries := x.deliveries.erase d }).drain d.lock

/-- Nothing is scheduled or on its way. -/
def idle (ns : Namespace) : Bool := ns.dispatcher.outstanding = 0

/-- Drops the messages of a scheduled lock that no worker has taken up. -/
def abandon (ns : Namespace) (l : LockId) : Namespace :=
  (ns.modifyLock l ({ · with pending := [], scheduled := false })).modifyDispatcher fun d =>
    { d with outstanding := d.outstanding - 1 }

/-- From now on messages are dropped. -/
def closeDispatcher (ns : Namespace) : Namespace :=
  (ns.dispatcher.queue.foldl abandon ns).modifyDispatcher ({ · with queue := [], closed := true })

end Namespace
end LockManager
