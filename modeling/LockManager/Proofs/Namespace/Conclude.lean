import LockManager.Proofs.Arbiter.Completions
import LockManager.Proofs.Namespace.Delivery
import LockManager.Proofs.References

set_option autoImplicit false

/-!
What the locks of a namespace notice of a decision on a resource. The dispatcher is told of the locks
that have been sent messages, and drops no message while it is open.
-/

namespace LockManager
namespace Namespace

/-! ### Taking over what has been decided -/

/-- Nothing has happened to the namespace as a whole, and nothing has been handed over. -/
structure Steady (ns ns' : Namespace) : Prop where
  config : ns'.config = ns.config
  stopping : ns'.stopping = ns.stopping
  closed : ns'.dispatcher.closed = ns.dispatcher.closed
  deliveries : ns'.dispatcher.deliveries = ns.dispatcher.deliveries

theorem Steady.refl (ns : Namespace) : Steady ns ns := ⟨rfl, rfl, rfl, rfl⟩

theorem Steady.trans {ns ns' ns'' : Namespace} (first : Steady ns ns') (second : Steady ns' ns'') :
    Steady ns ns'' :=
  ⟨second.config.trans first.config, second.stopping.trans first.stopping,
    second.closed.trans first.closed, second.deliveries.trans first.deliveries⟩

/-- The dispatcher has been told of locks. If it is open, it drops no messages. -/
structure Tells (ns ns' : Namespace) : Prop where
  steady : Steady ns ns'
  lock : ∀ k, ∃ scheduled pending, ns'.lock k = { ns.lock k with scheduled, pending } ∧
    (ns.dispatcher.closed = false → pending = (ns.lock k).pending)

theorem Tells.refl (ns : Namespace) : Tells ns ns := ⟨.refl ns, fun _ => ⟨_, _, rfl, fun _ => rfl⟩⟩

theorem Tells.trans {ns ns' ns'' : Namespace} (first : Tells ns ns') (second : Tells ns' ns'') :
    Tells ns ns'' := by
  refine ⟨first.steady.trans second.steady, fun k => ?_⟩
  obtain ⟨_, _, before, kept⟩ := first.lock k
  obtain ⟨scheduled, pending, after, kept'⟩ := second.lock k
  rw [before] at after kept'
  exact ⟨scheduled, pending, after,
    fun opened => (kept' (first.steady.closed.trans opened)).trans (kept opened)⟩

theorem tells_schedule (ns : Namespace) (l : LockId) : Tells ns (ns.schedule l) := by
  have change (f : Lock → Lock) (each : ∀ x, ∃ scheduled pending, f x = { x with scheduled, pending } ∧
      (ns.dispatcher.closed = false → pending = x.pending)) (k : LockId) :
      ∃ scheduled pending, (ns.modifyLock l f).lock k = { ns.lock k with scheduled, pending } ∧
        (ns.dispatcher.closed = false → pending = (ns.lock k).pending) := by
    rw [lock_modifyLock]
    split
    · exact each _
    · exact ⟨_, _, rfl, fun _ => rfl⟩
  unfold schedule
  dsimp only
  split
  · exact .refl ns
  · split
    · next closed =>
      refine ⟨⟨rfl, rfl, rfl, rfl⟩, change _ fun x => ⟨_, _, rfl, fun opened => ?_⟩⟩
      rw [closed] at opened
      cases opened
    · exact ⟨⟨rfl, rfl, rfl, rfl⟩, change _ fun x => ⟨_, _, rfl, fun _ => rfl⟩⟩

theorem tells_dispatch (ns : Namespace) (touched : List LockId) :
    Tells ns (ns.dispatch touched) := by
  unfold dispatch
  induction touched generalizing ns with
  | nil => exact .refl ns
  | cons l touched ih => exact (ns.tells_schedule l).trans (ih _)

variable {ns ns' : Namespace} {a : Arbiter} {r : ResourceId}

theorem steady_conclude (ns : Namespace) (r : ResourceId) (a : Arbiter) :
    Steady ns (ns.conclude r a) := by
  obtain ⟨config, stopping, closed, deliveries⟩ := (tells_dispatch { ns with
    locks := a.locks
    resources := ns.resources.modify r ({ · with queues := a.queues }) } a.touched).steady
  exact ⟨config, stopping, closed, deliveries⟩

theorem lock_conclude (ns : Namespace) (r : ResourceId) (a : Arbiter) (k : LockId) :
    ∃ scheduled pending, (ns.conclude r a).lock k = { a.lock k with scheduled, pending } ∧
      (ns.dispatcher.closed = false → pending = (a.lock k).pending) :=
  (tells_dispatch _ a.touched).lock k

theorem standing_conclude (k : LockId) :
    ((ns.conclude r a).lock k).standing = (a.lock k).standing := by
  obtain ⟨scheduled, pending, same, -⟩ := ns.lock_conclude r a k
  rw [same]
  rfl

theorem hears_conclude (opened : ns.dispatcher.closed = false) {x : Lock} {modes : List Mode}
    {k : LockId} (hears : x.Hears (a.lock k) modes) : x.Hears ((ns.conclude r a).lock k) modes := by
  obtain ⟨scheduled, pending, same, kept⟩ := ns.lock_conclude r a k
  obtain rfl := kept opened
  rw [same]
  exact ⟨hears.claim, hears.suppressed, hears.pending⟩

theorem served_conclude {x : Lock} {k : LockId} (served : x.Served True (a.lock k)) :
    x.Served (ns.dispatcher.closed = false) ((ns.conclude r a).lock k) := by
  have claim : ((ns.conclude r a).lock k).claim = (a.lock k).claim := by
    obtain ⟨scheduled, pending, same, -⟩ := ns.lock_conclude r a k
    rw [same]
  cases served with
  | still before standing hears =>
    exact .still (claim.trans before) ((standing_conclude k).trans standing)
      fun opened => hears_conclude opened (hears trivial)
  | granted before edge standing hears =>
    exact .granted (claim.trans before) edge ((standing_conclude k).trans standing)
      fun opened => hears_conclude opened (hears trivial)

/-! ### Coming and changing mode -/

section

variable {k l : LockId}

/-- Nobody else gains anything when a lock comes. -/
theorem served_submit (known : l < ns.locks.size) (named : (ns.lock l).claim.id = l)
    {reply : Reply} (done : ns.submit l r = .ok (reply, ns')) (other : k ≠ l) :
    (ns.lock k).Served (ns.dispatcher.closed = false) (ns'.lock k) := by
  rcases submit_ok done with rfl | ⟨-, rfl⟩
  · exact .refl _
  · apply served_conclude
    have entered := (ns.arbiter r).lock_modifyLock l fun _ => (ns.lock l).enter .enqueued
    generalize (ns.arbiter r).modifyLock l _ = a at entered ⊢
    have self : a.lock l = (ns.lock l).enter .enqueued := (entered l).trans (if_pos ⟨rfl, known⟩)
    have old : a.lock k = ns.lock k := (entered k).trans (if_neg fun both => other both.1.symm)
    obtain ⟨hears, standing, -⟩ := a.receive_lock (ns.lock l).claim (by rw [named, self]; rfl)
      (ns.lock l).requestedMode
    rw [← old]
    exact .still (hears k).claim (standing k (named.symm ▸ other)) fun _ => hears k

/-- Others may gain if a lock gives up a mode for another one at once. -/
theorem served_changeMode (named : (ns.lock l).claim.id = l) {mode : Mode} {status : ConvertStatus}
    (done : ns.changeMode l mode r = .ok (status, ns')) (other : k ≠ l) :
    (ns.lock k).Served (ns.dispatcher.closed = false) (ns'.lock k) := by
  rcases changeMode_ok done with rfl | ⟨-, decided⟩
  · exact .refl _
  · have old : (ns.asking l mode r).lock k = ns.lock k :=
      ((ns.arbiter r).lock_modifyLock l _ k).trans (if_neg fun both => other both.1.symm)
    generalize ns.asking l mode r = a at old decided
    rcases decided with ⟨-, rfl⟩ | ⟨-, b, converted, rfl⟩
    · obtain ⟨hears, standing⟩ := (a.modifyQueues
        (·.addConverting ⟨(ns.lock l).claim, mode⟩)).asks_askHolders (ns.lock l).claim mode k
      apply served_conclude
      rw [← old]
      exact .still hears.claim standing fun _ => hears
    · have switched : b.lock k = a.lock k :=
        (Arbiter.lock_convert converted).2 k (named.symm ▸ other)
      apply served_conclude
      rw [← old, ← switched]
      exact Arbiter.serves_respects.reprocess b k

end

/-! ### Leaving -/

section

variable (ns)

/-- The namespace without its resources. -/
def roster : Namespace := { ns with resources := {}, index := {} }

theorem roster_findOrCreate (k : Key) : (ns.findOrCreate k).2.roster = ns.roster := by
  unfold findOrCreate
  split <;> rfl

theorem roster_release (r : ResourceId) : (ns.release r).roster = ns.roster := by
  unfold release reclaim
  dsimp only
  split
  · split <;> rfl
  · rfl

theorem alike_release (r : ResourceId) : Alike ns (ns.release r) := by
  unfold release
  dsimp only
  split
  · exact (ns.alike_dropRef r).alike (alike_reclaim _ r)
  · exact ns.alike_dropRef r

end

theorem Steady.of_roster (same : ns'.roster = ns.roster) : Steady ns ns' :=
  ⟨(congrArg Namespace.config same :), (congrArg Namespace.stopping same :),
    (congrArg (·.dispatcher.closed) same :), (congrArg (·.dispatcher.deliveries) same :)⟩

theorem steady_addLock (ns : Namespace) (req : LockRequest) : Steady ns (ns.addLock req).2 := by
  have found := Steady.of_roster (ns.roster_findOrCreate req.key)
  exact ⟨found.config, found.stopping, found.closed, found.deliveries⟩

theorem lock_of_roster (same : ns'.roster = ns.roster) (k : LockId) : ns'.lock k = ns.lock k :=
  congrArg (·.lock k) same

theorem steady_dropReplay (ns : Namespace) (claim : Claim) : Steady ns (ns.dropReplay claim) := by
  unfold dropReplay
  split
  · split <;> exact ⟨rfl, rfl, rfl, rfl⟩
  · exact .refl ns

theorem lock_dropReplay (ns : Namespace) (claim : Claim) (k : LockId) :
    (ns.dropReplay claim).lock k = ns.lock k := by
  unfold dropReplay
  split
  · split <;> rfl
  · rfl

theorem mark?_eq {l : LockId} (marked : ns.mark? l = some ns') :
    (ns.lock l).state.allows .canceling = true ∧
      ns' = ns.modifyLock l fun _ => (ns.lock l).enter .canceling := by
  obtain ⟨x, entered, rfl⟩ := Option.map_eq_some_iff.mp marked
  obtain ⟨edge, rfl⟩ := Lock.eq_enter_of_advance entered
  exact ⟨edge, rfl⟩

/-- When a lock leaves, others may be granted what they wanted. -/
theorem served_leave (ns : Namespace) (l : LockId) (r : ResourceId) :
    Steady ns (ns.leave l r) ∧ ∀ k, k ≠ l →
      (ns.lock k).Served (ns.dispatcher.closed = false) ((ns.leave l r).lock k) := by
  unfold leave
  dsimp only
  have old (k : LockId) (other : k ≠ l) (f : Lock → Lock) :
      (((ns.arbiter r).modifyQueues (·.remove l)).modifyLock l f).lock k = ns.lock k :=
    (Arbiter.lock_modifyLock _ l f k).trans (if_neg fun both => other both.1.symm)
  specialize old (f := fun lock => { (lock.advance? .canceled).getD lock with
    grantedMode := none, blockingSentAt := none, pending := [] })
  generalize Arbiter.modifyLock _ l _ = a at old ⊢
  have served (k : LockId) : (a.lock k).Served (ns.dispatcher.closed = false)
      ((ns.conclude r a.reprocess).lock k) :=
    served_conclude (Arbiter.serves_respects.reprocess a k)
  have concluded := ns.steady_conclude r a.reprocess
  generalize ns.conclude r a.reprocess = ns₁ at served concluded ⊢
  have dropped := ns₁.steady_dropReplay (ns₁.lock l).claim
  have same := ns₁.lock_dropReplay (ns₁.lock l).claim
  generalize ns₁.dropReplay (ns₁.lock l).claim = ns₂ at dropped same ⊢
  refine ⟨(concluded.trans dropped).trans ⟨rfl, rfl, rfl, rfl⟩, fun k other => ?_⟩
  have last : (ns₂.modifyLock l ({ · with retired := true })).lock k = ns₂.lock k :=
    (ns₂.lock_modifyLock _ l k).trans (if_neg fun both => other both.1.symm)
  have all := served k
  rw [old k other, ← same, ← last] at all
  exact all

end Namespace
end LockManager
