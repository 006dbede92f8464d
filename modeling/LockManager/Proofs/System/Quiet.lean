import LockManager.Proofs.System

set_option autoImplicit false

/-!
A system with no operation in progress. No lock is on its way out, so every resource is settled.
-/

namespace LockManager
namespace System

variable {s : System}

/-- The queues of a resource. -/
def queues (s : System) (r : ResourceId) : Queues := (s.space.resource r).queues

theorem todo_of_quiet (quiet : s.quiet = true) (i : TaskId) : (s.task i).todo = [] := by
  cases todo : (s.task i).todo with
  | nil => rfl
  | cons stage rest =>
    have inside : i < s.tasks.size := lt_size_of_todo (todo ▸ List.mem_cons_self)
    have finished := List.all_eq_true.mp quiet i (List.mem_range.mpr inside)
    rw [Task.finished, todo] at finished
    cases finished

namespace Sound

theorem ne_canceling (sound : s.Sound) (quiet : s.quiet = true) {l : LockId}
    (known : l < s.space.locks.size) : (s.space.lock l).state ≠ .canceling := by
  intro canceling
  have going := sound.going l known
  have none : s.leaves l = 0 := by
    apply Finset.sum_eq_zero
    intro i _
    rw [todo_of_quiet quiet]
    rfl
  rw [none, Namespace.going, if_pos canceling] at going
  cases going

/-- Whoever has an entry stays. -/
theorem stays (sound : s.Sound) (quiet : s.quiet = true) {r : ResourceId} {e : Entry}
    (inside : e ∈ (s.space.resource r).queues.entries) :
    (s.space.lock e.claim.id).state.leaving = false := by
  have c := sound.space.ledger.coherent
  have canceling := sound.ne_canceling quiet (c.known r e inside)
  have seat := c.seat_of_mem inside
  cases state : (s.space.lock e.claim.id).state with
  | canceling => exact absurd state canceling
  | canceled =>
    rw [Lock.Seated, show (s.space.ledger.lock e.claim.id).state = .canceled from state] at seat
    exact absurd rfl (Queues.not_mem_of_empty seat.of_canceled.2 inside)
  | _ => rfl

theorem settled (sound : s.Sound) (quiet : s.quiet = true) (r : ResourceId) :
    s.space.ledger.Settled r := by
  rcases sound.space.ledger.attended r with ⟨e, inside, gone⟩ | settled
  · have stays := sound.stays quiet inside
    rw [show (s.space.lock e.claim.id).state.leaving = true from gone] at stays
    cases stays
  · exact settled

end Sound
end System
end LockManager
