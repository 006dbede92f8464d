import LockManager.Proofs.Ledger.Settled

set_option autoImplicit false

/-!
Who is charged with a grant. A grant passes over every pending conversion and every earlier waiter
that it stands against; each of them is counted on the lock that is passed over.
-/

namespace LockManager

theorem Lock.outline_passOver (n : Nat) (x : Lock) :
    (Lock.passOver^[n] x).outline = Lock.passOver^[n] x.outline := by
  induction n generalizing x with
  | zero => rfl
  | succ n ih =>
    rw [Function.iterate_succ_apply, Function.iterate_succ_apply, ih]
    rfl

/-- How many entries of a lock, among its `own`, a grant of `mode` to `claim` passes over. -/
def Queues.passed (own : Queues) (claim : Claim) (mode : Mode) : Nat :=
  ((own.converting ++ own.waiting.filter (·.claim.id < claim.id)).filter
    (·.opposes claim mode)).length

namespace Ledger

theorem eq_of_parts {b b' : Ledger} (config : b.config = b'.config) (size : b.size = b'.size)
    (lock : b.lock = b'.lock) (queues : b.queues = b'.queues) : b = b' := by
  cases b
  cases b'
  simp_all

/-- A grant of `mode` to `claim` on `r` is counted on every lock that it passes over. -/
def charge (b : Ledger) (r : ResourceId) (claim : Claim) (mode : Mode) : Ledger :=
  { b with
    lock := fun k => Lock.passOver^[((b.queues r).of k).passed claim mode] (b.lock k) }

variable {b b' : Ledger} {r : ResourceId} {k l : LockId}

theorem not_opposed_of_not_blocked (bound : (b.lock l).resource = r) {mode : Mode}
    (free : ¬b.Blocked r ⟨(b.lock l).claim, mode⟩) : b.opposed l mode = false := by
  apply Bool.eq_false_iff.mpr
  intro against
  obtain ⟨g, inside, opposes⟩ := List.any_eq_true.mp against
  rw [home, bound] at inside
  exact free (.inl ⟨g, inside, opposes⟩)

/-- What comes of looking at the locks of `r` again: one of them gets what it waits for, and nothing
keeps it back. -/
inductive Award (r : ResourceId) (b : Ledger) : Ledger → Prop where
  | serve {l : LockId} (known : l < b.size) (bound : (b.lock l).resource = r)
      (waits : (b.lock l).state = .waiting)
      (free : ¬b.Blocked r ⟨(b.lock l).claim, (b.lock l).requestedMode⟩)
      (passed : Passes r b (b.charge r (b.lock l).claim (b.lock l).requestedMode)) :
      Award r b ((b.charge r (b.lock l).claim (b.lock l).requestedMode).serve l)
  | complete {l : LockId} (known : l < b.size) (bound : (b.lock l).resource = r)
      (converts : (b.lock l).state = .converting)
      (free : b.opposed l (b.lock l).requestedMode = false) : Award r b (b.complete l)

abbrev Awards (r : ResourceId) : Ledger → Ledger → Prop := Relation.ReflTransGen (Award r)

theorem Award.grants (done : Award r b b') : Grants r b b' := by
  cases done with
  | @serve l known bound waits free passed =>
    obtain ⟨n, same⟩ := passed.lock l
    refine passed.grants.tail (.serve (passed.size.symm ▸ known) ?_ ?_ ?_)
    · rw [same]
      exact bound
    · rw [same]
      exact waits
    · rw [passed.opposed, same]
      exact not_opposed_of_not_blocked bound free
  | complete known bound converts free => exact .single (.complete known bound converts free)

theorem Awards.grants (done : Awards r b b') : Grants r b b' := by
  induction done with
  | refl => exact .refl
  | tail _ last ih => exact ih.trans last.grants

end Ledger
end LockManager
