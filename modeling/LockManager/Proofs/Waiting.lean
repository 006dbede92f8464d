import LockManager.Proofs.System.Quiet
import LockManager.Proofs.System.Schedule

set_option autoImplicit false

/-!
No waiter is forgotten: once no operation is in progress, each one waits for a reason.
-/

namespace LockManager

theorem Namespace.grantable_of_blocked {ns : Namespace} {r : ResourceId} {w : Entry}
    (coherent : ns.ledger.Coherent) (blocked : ns.ledger.Blocked r w) :
    (ns.arbiter r).grantable w.claim w.mode = false := by
  rw [← ns.ledger_arbiter r] at blocked
  exact (Arbiter.grantable_eq_false_iff (coherent.ordered r)).mpr blocked

namespace System

/-- A waiter is not grantable, and whoever keeps it waiting is another lock that is granted, a
pending conversion that has been passed over too often, or an earlier waiter that wants the same
mode or has been passed over too often. -/
theorem waiter_not_grantable {config : Config} {s : System} (reachable : Reachable config s)
    (quiet : s.quiet = true) (r : ResourceId) {w : Entry}
    (inside : w ∈ (s.space.resource r).queues.waiting) :
    (s.space.arbiter r).grantable w.claim w.mode = false ∧
      ((∃ g ∈ (s.space.resource r).queues.granted, g.opposes w.claim w.mode = true) ∨
        (∃ e ∈ (s.space.resource r).queues.converting, e.opposes w.claim w.mode = true ∧
          s.space.config.starves (s.space.lock e.claim.id).bypassed = true) ∨
        ∃ y ∈ (s.space.resource r).queues.waiting, y.claim.seq < w.claim.seq ∧
          y.claim.policy.overlaps w.claim.policy = true ∧
          (y.mode = w.mode ∨ y.mode.compatible w.mode = false ∧
            s.space.config.starves (s.space.lock y.claim.id).bypassed = true)) := by
  have sound := reachable.sound
  have blocked : s.space.ledger.Blocked r w := by
    apply ((sound.settled quiet r).2 w inside).resolve_left
    intro gone
    have stays := sound.stays quiet (Queues.mem_entries.mpr (.inr inside))
    rw [show (s.space.lock w.claim.id).state.leaving = true from gone] at stays
    cases stays
  refine ⟨Namespace.grantable_of_blocked sound.space.ledger.coherent blocked, ?_⟩
  rcases blocked with opposed | ⟨e, pending, against, -, starved⟩ |
    ⟨y, waits, earlier, meet, ⟨same, -⟩ | ⟨against, -, starved⟩⟩
  · exact .inl opposed
  · exact .inr (.inl ⟨e, pending, against, starved⟩)
  · exact .inr (.inr ⟨y, waits, Nat.succ_lt_succ earlier, meet, .inl same⟩)
  · exact .inr (.inr ⟨y, waits, Nat.succ_lt_succ earlier, meet, .inr ⟨against, starved⟩⟩)

/-- A second writer waits for the first. -/
theorem waiter_not_grantable_writer :
    let s := (fresh {}).follow
      (Move.through (.enqueue { key := ⟨1, 0⟩, mode := .exclusive, owner := ⟨"a"⟩ }) 0 ++
        Move.through (.enqueue { key := ⟨1, 0⟩, mode := .exclusive, owner := ⟨"b"⟩ }) 1)
    (s.space.resource 0).queues.waiting.length = 1 ∧
      ∀ w ∈ (s.space.resource 0).queues.waiting,
        (s.space.arbiter 0).grantable w.claim w.mode = false := by
  refine ⟨by decide +kernel, fun w waits => ?_⟩
  exact (waiter_not_grantable (reachable_follow rfl _) (by decide +kernel) 0 waits).1

end System
end LockManager
