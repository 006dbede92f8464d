import LockManager.Proofs.Arbiter.Avoids
import LockManager.Proofs.Namespace.Notices

set_option autoImplicit false

/-!
How a lock leaves: it is taken out of the queues of its resource, the resource is looked at again, and
then its handle is retired.
-/

namespace LockManager
namespace Namespace

/-- The queues of `r` without the lock `l`, which is done with. -/
def departing (ns : Namespace) (l : LockId) (r : ResourceId) : Arbiter :=
  ((ns.arbiter r).modifyQueues (·.remove l)).modifyLock l fun lock =>
    { (lock.advance? .canceled).getD lock with
      grantedMode := none, blockingSentAt := none, pending := [] }

/-- Forgets that the lock answered a request, and retires its handle. -/
def retire (ns : Namespace) (l : LockId) : Namespace :=
  { (ns.dropReplay (ns.lock l).claim).modifyLock l ({ · with retired := true }) with
    handles := (ns.dropReplay (ns.lock l).claim).handles.remove (ns.lock l).claim.handle }

variable {ns : Namespace} {k l : LockId} {r : ResourceId}

theorem Alike.queues {ns' : Namespace} (same : Alike ns ns') (r : ResourceId) :
    (ns'.resource r).queues = (ns.resource r).queues :=
  congrFun (congrArg Ledger.queues same.ledger) r

theorem Alike.outline {ns' : Namespace} (same : Alike ns ns') (k : LockId) :
    (ns'.lock k).outline = (ns.lock k).outline :=
  same.lock k

theorem Alike.config {ns' : Namespace} (same : Alike ns ns') : ns'.config = ns.config :=
  congrArg Ledger.config same.ledger

theorem leave_eq (ns : Namespace) (l : LockId) (r : ResourceId) :
    ns.leave l r = (ns.conclude r (ns.departing l r).reprocess).retire l := by
  unfold leave retire departing
  rfl

theorem queues_retire (ns : Namespace) (l : LockId) (r : ResourceId) :
    ((ns.retire l).resource r).queues = (ns.resource r).queues :=
  (ns.alike_dropReplay (ns.lock l).claim).queues r

theorem lock_retire (ns : Namespace) (l k : LockId) : (ns.retire l).lock k =
    if l = k ∧ l < ns.locks.size then { ns.lock k with retired := true } else ns.lock k := by
  refine ((ns.dropReplay (ns.lock l).claim).lock_modifyLock _ l k).trans ?_
  rw [lock_dropReplay, (ns.alike_dropReplay (ns.lock l).claim).size]
  rfl

theorem state_retire (ns : Namespace) (l k : LockId) :
    ((ns.retire l).lock k).state = (ns.lock k).state := by
  rw [lock_retire]
  split <;> rfl

theorem config_retire (ns : Namespace) (l : LockId) : (ns.retire l).config = ns.config :=
  (ns.alike_dropReplay (ns.lock l).claim).config

theorem size_retire (ns : Namespace) (l : LockId) : (ns.retire l).locks.size = ns.locks.size :=
  (Arena.size_modify ..).trans (ns.alike_dropReplay _).size

theorem size_conclude (ns : Namespace) (r : ResourceId) (a : Arbiter) :
    (ns.conclude r a).locks.size = a.locks.size :=
  (alike_dispatch _ a.touched).size

theorem queues_conclude_of_ne {q : ResourceId} (other : q ≠ r) (a : Arbiter) :
    ((ns.conclude r a).resource q).queues = (ns.resource q).queues := by
  have same := (alike_dispatch { ns with
    locks := a.locks
    resources := ns.resources.modify r ({ · with queues := a.queues }) } a.touched).queues q
  exact same.trans (congrArg Resource.queues (Arena.get_modify_of_ne _ _ (Ne.symm other)))

theorem outline_conclude (ns : Namespace) (r : ResourceId) (a : Arbiter) (k : LockId) :
    ((ns.conclude r a).lock k).outline = (a.lock k).outline := by
  obtain ⟨scheduled, pending, same, -⟩ := ns.lock_conclude r a k
  rw [same]
  rfl

theorem Sound.ne_of_apart (sound : ns.Sound) (known : l < ns.locks.size)
    (bound : (ns.lock l).resource = r) (apart : (ns.lock k).resource ≠ r) :
    k ≠ (ns.lock l).claim.id ∧ k ≠ l := by
  have other : k ≠ l := fun same => apart (same ▸ bound)
  have mine : (ns.lock l).claim.id = l := sound.ledger.coherent.named l known
  exact ⟨mine.symm ▸ other, other⟩

/-- Whoever has no entry on the resource is left alone when another lock comes there, asks for another
mode or leaves. -/
theorem avoids_entering (other : k ≠ (ns.lock l).claim.id) (here : k ≠ l)
    (none : (ns.resource r).queues.of k = {}) (x : Lock) (mode : Mode) :
    Arbiter.Avoids k (ns.arbiter r)
      (((ns.arbiter r).modifyLock l fun _ => x).receive (ns.lock l).claim mode) := by
  have entered := Arbiter.Avoids.modifyLock (ns.arbiter r) (fun _ => x) here
  exact entered.trans (.receive (entered.own.trans none) mode other)

theorem avoids_pending (other : k ≠ (ns.lock l).claim.id) (here : k ≠ l)
    (none : (ns.resource r).queues.of k = {}) (mode : Mode) :
    Arbiter.Avoids k (ns.arbiter r) (((ns.asking l mode r).modifyQueues
      (·.addConverting ⟨(ns.lock l).claim, mode⟩)).askHolders (ns.lock l).claim mode) := by
  have asks : Arbiter.Avoids k (ns.arbiter r) (ns.asking l mode r) := .modifyLock _ _ here
  have pends := asks.trans (.modifyQueues _ (f := (·.addConverting ⟨(ns.lock l).claim, mode⟩))
    (Queues.sameBut_addConverting _ rfl) other)
  exact pends.trans (.askHolders (pends.own.trans none) _ _)

theorem avoids_switching (other : k ≠ (ns.lock l).claim.id) (here : k ≠ l)
    (none : (ns.resource r).queues.of k = {}) {mode : Mode} {a : Arbiter}
    (converted : (ns.asking l mode r).convert? (ns.lock l).claim mode false = some a) :
    Arbiter.Avoids k (ns.arbiter r) a.reprocess := by
  have asks : Arbiter.Avoids k (ns.arbiter r) (ns.asking l mode r) := .modifyLock _ _ here
  have switched := asks.trans (.convert converted other)
  exact switched.trans (.reprocess (switched.own.trans none))

theorem avoids_departing (other : k ≠ l) (none : (ns.resource r).queues.of k = {}) :
    Arbiter.Avoids k (ns.arbiter r) (ns.departing l r).reprocess := by
  have departed : Arbiter.Avoids k (ns.arbiter r) (ns.departing l r) :=
    (Arbiter.Avoids.modifyQueues _ (Queues.sameBut_remove _ l) other).trans (.modifyLock _ _ other)
  exact departed.trans (.reprocess (departed.own.trans none))

end Namespace
end LockManager
