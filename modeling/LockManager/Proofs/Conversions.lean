import LockManager.Proofs.System.Quiet
import LockManager.Proofs.System.Schedule

set_option autoImplicit false

/-!
Pending conversions. They are looked at once, in order, while each one that is completed changes
what its lock holds. Completing a conversion between the two modes that cross makes room for an
earlier one to the same mode, which has been passed by already and is left pending. Nothing else is
forgotten.
-/

namespace LockManager
namespace System

/-- Every pending conversion is stood against by another granted lock, exactly when none has been
overtaken by a lock that holds the mode it wants with nothing else against it. -/
theorem conversions_opposed_iff {config : Config} {s : System} (reachable : Reachable config s)
    (quiet : s.quiet = true) (r : ResourceId) :
    (∀ e ∈ (s.space.resource r).queues.converting,
        ∃ g ∈ (s.space.resource r).queues.granted, g.opposes e.claim e.mode = true) ↔
      ∀ e ∈ (s.space.resource r).queues.converting,
        (e.mode = .protectedRead ∨ e.mode = .concurrentWrite) →
          ∀ g ∈ (s.space.resource r).queues.granted, g.claim.id ≠ e.claim.id → g.mode = e.mode →
            g.claim.policy.overlaps e.claim.policy = true →
              ∃ g' ∈ (s.space.resource r).queues.granted, g'.opposes e.claim e.mode = true := by
  constructor
  · intro opposed e pending _ _ _ _ _ _
    exact opposed e pending
  · intro overtaken e pending
    have kept : (s.space.resource r).queues.Kept e := by
      apply ((reachable.sound.settled quiet r).1 e pending).resolve_left
      intro gone
      have stays := reachable.sound.stays quiet (Queues.mem_entries.mpr (.inl (.inr pending)))
      rw [show (s.space.lock e.claim.id).state.leaving = true from gone] at stays
      cases stays
    rcases kept with opposed | ⟨crosses, g, holds, other, same, meet⟩
    · exact opposed
    · exact overtaken e pending crosses g holds other same meet

/-- Two readers, one of which wants to write. -/
theorem conversions_opposed_reader :
    let s := (fresh {}).follow
      (Move.through (.enqueue { key := ⟨1, 0⟩, mode := .protectedRead, owner := ⟨"a"⟩ }) 0 ++
        Move.through (.enqueue { key := ⟨1, 0⟩, mode := .protectedRead, owner := ⟨"b"⟩ }) 1 ++
        Move.through (.convert ⟨0, 1⟩ .exclusive) 2)
    (s.space.resource 0).queues.converting.length = 1 ∧
      ∀ e ∈ (s.space.resource 0).queues.converting,
        ∃ g ∈ (s.space.resource 0).queues.granted, g.opposes e.claim e.mode = true := by
  refine ⟨by decide +kernel, ?_⟩
  exact (conversions_opposed_iff (reachable_follow rfl _) (by decide +kernel) 0).mpr
    (by decide +kernel)

/-- A reader and two writers; the reader and one of the writers want `protectedRead`, and the other
writer goes. Only the later of the two conversions is completed. -/
theorem overtaken_conversion_left_pending :
    let s := (fresh {}).follow
      (Move.through (.enqueue { key := ⟨1, 0⟩, mode := .concurrentRead, owner := ⟨"a"⟩ }) 0 ++
        Move.through (.enqueue { key := ⟨1, 0⟩, mode := .concurrentWrite, owner := ⟨"b"⟩ }) 1 ++
        Move.through (.enqueue { key := ⟨1, 0⟩, mode := .concurrentWrite, owner := ⟨"d"⟩ }) 2 ++
        Move.through (.convert ⟨0, 1⟩ .protectedRead) 3 ++
        Move.through (.convert ⟨1, 1⟩ .protectedRead) 4 ++
        [.start (.cancel ⟨2, 1⟩), .carryOut 5, .take 5, .take 5, .carryOut 5])
    Reachable {} s ∧ s.quiet = true ∧ ∃ e ∈ (s.space.resource 0).queues.converting,
      ¬∃ g ∈ (s.space.resource 0).queues.granted, g.opposes e.claim e.mode = true :=
  ⟨reachable_follow rfl _, by decide +kernel, by decide +kernel⟩

end System
end LockManager
