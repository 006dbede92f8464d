import LockManager.Proofs.System.Schedule

set_option autoImplicit false

/-!
Mutual exclusion in terms of what locks cover. A reversed extent or an empty set of bits, which
would stand against nothing, never comes to a resource.
-/

namespace LockManager

namespace Ledger.Coherent

variable {b : Ledger}

theorem policy_of_mem (c : b.Coherent) {r : ResourceId} {e : Entry}
    (inside : e ∈ (b.queues r).entries) : e.claim.policy.fault? = none := by
  rw [c.claim_eq inside]
  exact c.valid _ (c.known r e inside)

/-- Two locks that are granted at once go together or cover no common part. -/
theorem exclude (c : b.Coherent) {r : ResourceId} {e e' : Entry} (inside : e ∈ (b.queues r).granted)
    (inside' : e' ∈ (b.queues r).granted) (other : e.claim.id ≠ e'.claim.id) :
    e.mode.compatible e'.mode = true ∨ ¬e.claim.policy.Share e'.claim.policy := by
  cases beside : e.mode.compatible e'.mode with
  | true => exact .inl rfl
  | false =>
    refine .inr fun share => ?_
    have valid := c.policy_of_mem (Queues.mem_entries.mpr (.inl (.inl inside)))
    have valid' := c.policy_of_mem (Queues.mem_entries.mpr (.inl (.inl inside')))
    have against : e.opposes e'.claim e'.mode = true :=
      Entry.opposes_iff.mpr ⟨other, beside, (Policy.overlaps_iff_share valid valid').mpr share⟩
    rw [c.apart r e inside e' inside'] at against
    cases against

end Ledger.Coherent

namespace System

/-- Whatever operations are in progress, two locks granted on one resource have compatible modes or
cover no common byte or bit. -/
theorem granted_exclude {config : Config} {s : System} (reachable : Reachable config s)
    (r : ResourceId) :
    (s.space.resource r).queues.granted.Pairwise fun e e' =>
      e.mode.compatible e'.mode = true ∨ ¬e.claim.policy.Share e'.claim.policy := by
  have c := reachable.sound.space.ledger.coherent
  exact (c.distinct_granted r).imp_of_mem fun inside inside' => c.exclude inside inside'

/-- Two writers of parts of a file that do not meet. -/
theorem granted_exclude_extents :
    let s := (fresh {}).follow
      (Move.through (.enqueue
          { key := ⟨1, 0⟩, mode := .exclusive, policy := .extent 0 9, owner := ⟨"a"⟩ }) 0 ++
        Move.through (.enqueue
          { key := ⟨1, 0⟩, mode := .exclusive, policy := .extent 10 19, owner := ⟨"b"⟩ }) 1)
    (s.space.resource 0).queues.granted.length = 2 ∧
      (s.space.resource 0).queues.granted.Pairwise fun e e' =>
        e.mode.compatible e'.mode = true ∨ ¬e.claim.policy.Share e'.claim.policy :=
  ⟨by decide +kernel, granted_exclude (reachable_follow rfl _) 0⟩

end System
end LockManager
