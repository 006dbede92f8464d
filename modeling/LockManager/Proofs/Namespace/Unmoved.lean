import LockManager.Proofs.Namespace.Issued

set_option autoImplicit false

/-!
What leaves all locks where they are: no lock comes, goes or moves to another resource, and no handle is
issued or taken back. Granting, converting and telling the owners is of that kind.
-/

namespace LockManager
namespace Namespace

structure Unmoved (ns ns' : Namespace) : Prop where
  resting : ns'.Resting
  stopping : ns'.stopping = ns.stopping
  role : ns'.config.role = ns.config.role
  size : ns'.locks.size = ns.locks.size
  claim : ∀ k, (ns'.lock k).claim = (ns.lock k).claim
  key : ∀ k, (ns'.lock k).key = (ns.lock k).key
  retired : ∀ k, (ns'.lock k).retired = (ns.lock k).retired
  handles : ns'.handles = ns.handles
  replays : ∀ k h, ns'.replays.get? k = some h → ns.replays.get? k = some h

variable {ns ns' ns'' : Namespace} {l : LockId}

namespace Unmoved

theorem refl (rest : ns.Resting) : Unmoved ns ns :=
  ⟨rest, rfl, rfl, rfl, fun _ => rfl, fun _ => rfl, fun _ => rfl, rfl, fun _ _ => id⟩

theorem trans (first : Unmoved ns ns') (second : Unmoved ns' ns'') : Unmoved ns ns'' :=
  ⟨second.resting, second.stopping.trans first.stopping, second.role.trans first.role,
    second.size.trans first.size, fun k => (second.claim k).trans (first.claim k),
    fun k => (second.key k).trans (first.key k), fun k => (second.retired k).trans (first.retired k),
    second.handles.trans first.handles, fun k h => first.replays k h ∘ second.replays k h⟩

theorem alive (unmoved : Unmoved ns ns') : ns'.Alive l ↔ ns.Alive l := by
  unfold Alive
  rw [unmoved.size, unmoved.retired]

theorem handle (unmoved : Unmoved ns ns') (l : LockId) : (ns'.lock l).handle = (ns.lock l).handle :=
  congrArg Claim.handle (unmoved.claim l)

theorem issued (unmoved : Unmoved ns ns') {n : Nat} (issued : ns.Issued n) : ns'.Issued n :=
  issued.congr unmoved.handles unmoved.size unmoved.claim fun k _ => unmoved.retired k

/-- One lock has been dealt with, and is still there. -/
theorem of_puts {standing : Standing} (puts : Puts ns l standing ns') (alive : ns.Alive l)
    (handles : ns'.handles = ns.handles) : Unmoved ns ns' := by
  refine ⟨puts.resting, puts.steady.stopping, congrArg Config.role puts.steady.config, puts.size,
    puts.claim, fun k => ?_, fun k => ?_, handles, puts.replays⟩
  · by_cases here : k = l
    · rw [here, puts.key]
    · exact (puts.spared k here).key
  · by_cases here : k = l
    · rw [here, puts.alive.2, alive.2]
    · exact (puts.spared k here).retired

/-- Messages have been handed on, or time has passed. -/
theorem of_alike (rest : ns.Resting) (same : Alike ns ns') (books : ns'.books = ns.books)
    (stopping : ns'.stopping = ns.stopping) : Unmoved ns ns' := by
  refine ⟨rest.alike same (catalog_of_books books), stopping, ?_, same.size, fun k => ?_, fun k => ?_,
    fun k => ?_, handles_of_books books, fun k h found => ?_⟩
  · exact congrArg (·.config.role) same.ledger
  · exact (congrArg Lock.claim (same.lock k) :)
  · exact (congrArg Lock.key (same.lock k) :)
  · exact (congrArg Lock.retired (same.lock k) :)
  · rwa [← replays_of_books books]

end Unmoved

theorem handles_convert (ns : Namespace) (h : Handle) (mode : Mode) :
    (ns.convert h mode).2.handles = ns.handles := by
  unfold convert
  split
  · rfl
  · rfl
  · split
    · next done => exact handles_of_books (ns.books_changeMode done)
    · rfl

theorem handles_enqueueLock (ns : Namespace) (h : Handle) :
    (ns.enqueueLock h).2.handles = ns.handles := by
  unfold enqueueLock
  split
  · rfl
  · split
    · next done => exact handles_of_books (ns.books_submit done)
    · rfl

theorem handles_rebind (ns : Namespace) (h : Handle) (k : Key) :
    (ns.rebind h k).2.handles = ns.handles := by
  unfold rebind
  split
  · rfl
  · next l found =>
    split
    · rfl
    · have before := ns.roster_findOrCreate k
      generalize ns.findOrCreate k = made at before ⊢
      obtain ⟨target, ns₁⟩ := made
      have moved := handles_of_books (ns₁.books_move l target)
      dsimp only at before ⊢
      generalize ns₁.move l target = done at moved ⊢
      obtain ⟨answer, unneeded, ns₂⟩ := done
      have after := ns₂.roster_release unneeded
      dsimp only at moved ⊢
      generalize ns₂.release unneeded = ns₃ at after ⊢
      exact (congrArg Namespace.handles after :).trans
        (moved.trans (congrArg Namespace.handles before :))

namespace Resting

/-- Whatever comes of it, a lock that is asked to change its mode stays where it is. -/
theorem unmoved_convert (rest : ns.Resting) (alive : ns.Alive l) (running : ns.stopping = false)
    (mode : Mode) : Unmoved ns (ns.convert (ns.lock l).handle mode).2 := by
  have handles := ns.handles_convert (ns.lock l).handle mode
  by_cases granted : (ns.lock l).state = .granted
  · have holds := (rest.settled alive).holds granted
    have standing : (ns.lock l).standing =
        ⟨.granted, (ns.lock l).requestedMode, some (ns.lock l).requestedMode⟩ := by
      unfold Lock.standing
      rw [granted, holds]
    rcases rest.convert alive running standing mode with
      ⟨-, done⟩ | ⟨ns', ⟨done, puts⟩ | ⟨done, puts, -⟩⟩ <;> rw [done] at handles ⊢
    · exact .refl rest
    · exact .of_puts puts alive handles
    · exact .of_puts puts alive handles
  · obtain ⟨e, refused⟩ := rest.convert_refused alive running granted mode
    rw [refused]
    exact .refl rest

/-- A new lock is granted or waits, and stays where it is. -/
theorem unmoved_enqueueLock (rest : ns.Resting) (alive : ns.Alive l)
    (new : (ns.lock l).state = .new) (running : ns.stopping = false) :
    ∃ reply ns', ns.enqueueLock (ns.lock l).handle = (.ok reply, ns') ∧ Unmoved ns ns' := by
  have handles := ns.handles_enqueueLock (ns.lock l).handle
  obtain ⟨ns', standing, done, puts, -⟩ := rest.enqueueLock alive new running
  rw [done] at handles
  exact ⟨_, ns', done, .of_puts puts alive handles⟩

/-- A worker hands over the next message of a lock, or is done with the lock. -/
theorem unmoved_drain (rest : ns.Resting) (f : Dispatcher → Dispatcher) (l : LockId) :
    Unmoved ns ((ns.modifyDispatcher f).drain l) := by
  have before : Unmoved ns (ns.modifyDispatcher f) :=
    .of_alike rest (ns.alike_modifyDispatcher f) rfl rfl
  generalize ns.modifyDispatcher f = ns₁ at before ⊢
  have stopping : (ns₁.drain l).stopping = ns₁.stopping := by
    unfold drain
    dsimp only
    split <;> rfl
  exact before.trans (.of_alike before.resting (ns₁.alike_drain l) (ns₁.books_drain l) stopping)

theorem unmoved_takeUp (rest : ns.Resting) (taken : ns.takeUp? = some ns') : Unmoved ns ns' := by
  obtain ⟨-, l, queue, -, rfl⟩ := takeUp?_eq taken
  exact rest.unmoved_drain _ _

theorem unmoved_finish (rest : ns.Resting) (d : Delivery) : Unmoved ns (ns.finish d) :=
  rest.unmoved_drain _ _

end Resting

/-! ### What is issued -/

namespace Issued

variable {n : Nat} {req : LockRequest}

theorem createLock (issued : ns.Issued n) (rest : ns.Resting) (running : ns.stopping = false)
    (valid : req.policy.fault? = none) (owner : req.owner.name.isEmpty = false)
    (first : ns.replayOf? req = none) : (ns.createLock req).2.Issued n := by
  unfold Namespace.createLock
  rw [Resting.register_fresh running valid owner first]
  exact issued.addLock rest valid

theorem rebind (issued : ns.Issued n) {h : Handle} {k : Key} (deals : Deals ns l (ns.rebind h k).2)
    (alive : ns.Alive l) (alive' : (ns.rebind h k).2.Alive l) : (ns.rebind h k).2.Issued n := by
  refine issued.congr (ns.handles_rebind h k) deals.size deals.claim fun j _ => ?_
  by_cases here : j = l
  · rw [here, alive.2, alive'.2]
  · exact (deals.spared j here).retired

theorem enqueue (issued : ns.Issued n) (rest : ns.Resting) (fresh : ns.Fresh)
    (running : ns.stopping = false) (valid : req.policy.fault? = none)
    (owner : req.owner.name.isEmpty = false) (first : ns.replayOf? req = none) :
    (ns.enqueue req).2.Issued n := by
  have adds := rest.addLock fresh valid
  have grown := issued.addLock rest valid
  unfold Namespace.enqueue
  rw [Resting.register_fresh running valid owner first]
  dsimp only
  generalize (ns.addLock req).2 = ns₁ at adds grown ⊢
  obtain ⟨r, new⟩ := adds.new
  obtain ⟨ns', standing, done, puts, -⟩ :=
    adds.resting.submit adds.alive (by rw [new]; rfl) (adds.steady.stopping.trans running)
  rw [done]
  exact (Unmoved.of_puts puts adds.alive (handles_of_books (ns₁.books_submit done))).issued grown

end Issued
end Namespace
end LockManager
