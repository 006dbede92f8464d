import LockManager.Proofs.System.Quiet
import LockManager.Proofs.System.Schedule

set_option autoImplicit false

/-!
Queues and locks say the same. What a lock has in the queues of its resource is told by its state,
and elsewhere it has nothing.
-/

namespace LockManager

/-- How a lock stands while nothing is happening to it. -/
inductive Lock.Settled (x : Lock) (own : Queues) : Prop where
  | new (state : x.state = .new) (holds : x.grantedMode = none) (entries : own = {})
  | waiting (state : x.state = .waiting) (holds : x.grantedMode = none)
      (entries : own = { waiting := [⟨x.claim, x.requestedMode⟩] })
  | granted (state : x.state = .granted) (holds : x.grantedMode = some x.requestedMode)
      (entries : own = { granted := [⟨x.claim, x.requestedMode⟩] })
  | converting {held : Mode} (state : x.state = .converting) (holds : x.grantedMode = some held)
      (entries : own = { granted := [⟨x.claim, held⟩], converting := [⟨x.claim, x.requestedMode⟩] })
      (apart : held ≠ x.requestedMode)

/-- A lock not done with whose cancel has not begun. -/
theorem Namespace.Sound.settled {ns : Namespace} (sound : ns.Sound) {l : LockId}
    (alive : ns.Alive l) (canceling : (ns.lock l).state ≠ .canceling) :
    (ns.lock l).Settled ((ns.resource (ns.lock l).resource).queues.of l) := by
  obtain ⟨known, stays⟩ := alive
  have seat := sound.ledger.coherent.seated l known
  have arrived := sound.ledger.arrived l known
  have retired := sound.ledger.retired l known
  cases state : (ns.lock l).state with
  | new =>
    rw [Lock.Seated, show (ns.ledger.lock l).state = .new from state] at seat
    exact .new state seat.of_new.1 seat.of_new.2
  | waiting =>
    rw [Lock.Seated, show (ns.ledger.lock l).state = .waiting from state] at seat
    exact .waiting state seat.of_state_waiting.1 seat.of_state_waiting.2
  | granted =>
    rw [Lock.Seated, show (ns.ledger.lock l).state = .granted from state] at seat
    exact .granted state seat.of_state_granted.1 seat.of_state_granted.2
  | converting =>
    rw [Lock.Seated, show (ns.ledger.lock l).state = .converting from state] at seat
    obtain ⟨held, holds, up, entries⟩ := seat.of_state_converting
    exact .converting state holds entries (Mode.ne_of_raises up)
  | enqueued => exact absurd state arrived
  | canceling => exact absurd state canceling
  | canceled =>
    have gone : (ns.lock l).retired = true := retired.mpr state
    rw [stays] at gone
    cases gone

namespace System.Sound

variable {s : System}

theorem settled_of_alive (sound : s.Sound) (quiet : s.quiet = true) {l : LockId}
    (alive : s.space.Alive l) :
    (s.space.lock l).Settled
      ((s.space.resource (s.space.lock l).resource).queues.of l) :=
  sound.space.settled alive (sound.ne_canceling quiet alive.1)

end System.Sound

namespace System

/-- With no operation in progress queues and locks agree: every entry is an alive lock's on its own
resource, every alive lock stands in one of four ways and has nothing elsewhere, and waiters are in
order of arrival. The alive locks are those in the table of handles. -/
theorem queues_agree {config : Config} {s : System} (reachable : Reachable config s)
    (quiet : s.quiet = true) :
    (∀ r, ∀ e ∈ (s.space.resource r).queues.entries, s.space.Alive e.claim.id ∧
        (s.space.lock e.claim.id).claim = e.claim ∧ (s.space.lock e.claim.id).resource = r) ∧
      (∀ l, s.space.Alive l →
        (s.space.lock l).Settled
            ((s.space.resource (s.space.lock l).resource).queues.of l) ∧
          ∀ r, r ≠ (s.space.lock l).resource → (s.space.resource r).queues.of l = {}) ∧
      (∀ r, (s.space.resource r).queues.waiting.Pairwise (·.claim.seq < ·.claim.seq)) ∧
      (s.space.handles.slots.size ≤ UInt32.size → ∀ l, l ∈ s.space.live ↔ s.space.Alive l) := by
  have sound := reachable.sound
  have c := sound.space.ledger.coherent
  refine ⟨fun r e inside => ?_, fun l alive => ?_, fun r => ?_,
    fun room l => sound.space.mem_live_iff room⟩
  · obtain ⟨alive, bound⟩ := sound.space.alive_of_mem inside
    exact ⟨alive, (c.claim_eq inside).symm, bound⟩
  · exact ⟨sound.settled_of_alive quiet alive, c.elsewhere l alive.1⟩
  · exact (c.ordered r).imp fun earlier => Nat.succ_lt_succ earlier

/-- A writer that waits for another. -/
theorem queues_agree_writer :
    let s := (fresh {}).follow
      (Move.through (.enqueue { key := ⟨1, 0⟩, mode := .exclusive, owner := ⟨"a"⟩ }) 0 ++
        Move.through (.enqueue { key := ⟨1, 0⟩, mode := .exclusive, owner := ⟨"b"⟩ }) 1)
    s.space.live = [0, 1] ∧ ∀ l, l ∈ s.space.live → (s.space.lock l).Settled
      ((s.space.resource (s.space.lock l).resource).queues.of l) := by
  intro s
  have reachable : Reachable {} s := reachable_follow rfl _
  have quiet : s.quiet = true := by decide +kernel
  obtain ⟨-, settled, -, live⟩ := queues_agree reachable quiet
  refine ⟨by decide +kernel, fun l inside => ?_⟩
  exact (settled l ((live (by decide +kernel) l).mp inside)).1

end System
end LockManager
