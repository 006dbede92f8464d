import LockManager.Proofs.Ledger.Charge

set_option autoImplicit false

/-!
What becomes of a ledger between two moments at which others can look at it: the whole of what a stage of
an operation does. It comes down to steps of the ledger, but says in which order they are taken and who
is kept back.
-/

namespace LockManager
namespace Ledger

/-- What is done to a ledger at once. A lock may have been `brought` to the queues. -/
inductive Shift (b : Ledger) : (brought : Option LockId) → Ledger → Prop where
  | still (brought : Option LockId) : Shift b brought b
  | register {x : Lock} (fresh : x.claim.id = b.size) (new : x.state = .new)
      (nothing : x.grantedMode = none) (valid : x.claim.policy.fault? = none) :
      Shift b none (b.extend x)
  | rebind {k : LockId} (known : k < b.size) (new : (b.lock k).state = .new) (r : ResourceId)
      (key : Key) : Shift b none (b.set k { b.lock k with resource := r, key })
  | accept {k : LockId} {r : ResourceId} {b' : Ledger} (known : k < b.size)
      (new : (b.lock k).state = .new) (bound : (b.lock k).resource = r)
      (entered : b' = b.set k ((b.lock k).enter .enqueued))
      (free : ¬b'.Blocked r ⟨(b.lock k).claim, (b.lock k).requestedMode⟩)
      (passed : Passes r b' (b'.charge r (b.lock k).claim (b.lock k).requestedMode)) :
      Shift b (some k) ((b'.charge r (b.lock k).claim (b.lock k).requestedMode).accept k)
  | wait {k : LockId} (known : k < b.size) (new : (b.lock k).state = .new) :
      Shift b (some k) ((b.set k ((b.lock k).enter .enqueued)).wait k)
  | pend {k : LockId} {mode : Mode} (known : k < b.size) (granted : (b.lock k).state = .granted)
      (blocked : b.opposed k mode = true) : Shift b none (b.pend k mode)
  | switch {k : LockId} {mode : Mode} {r : ResourceId} {b' : Ledger} (known : k < b.size)
      (granted : (b.lock k).state = .granted) (free : b.opposed k mode = false)
      (awards : Awards r (b.switch k mode) b') : Shift b none b'
  | mark {k : LockId} (known : k < b.size) (stays : (b.lock k).state.leaving = false) :
      Shift b none (b.set k ((b.lock k).enter .canceling))
  | leave {k : LockId} {r : ResourceId} {b' : Ledger} (known : k < b.size)
      (canceling : (b.lock k).state = .canceling) (awards : Awards r (b.leave k) b') :
      Shift b none (b'.set k { b'.lock k with retired := true })

variable {b b' : Ledger} {brought : Option LockId}

theorem Shift.steps (shift : Shift b brought b') : Steps b b' := by
  cases shift with
  | still _ => exact .refl
  | register fresh new nothing valid => exact .single (.register fresh new nothing valid)
  | rebind known new r key => exact .single (.rebind known new r key)
  | @accept k r b₁ known new bound entered free passed =>
    subst entered
    have self := b.lock_set_self k ((b.lock k).enter .enqueued)
    obtain ⟨n, same⟩ := passed.lock k
    refine .head (.enqueue known new)
      (passed.grants.steps.tail (.accept (passed.size.symm ▸ known) ?_ ?_))
    · rw [same, self]
      rfl
    · rw [same, passed.opposed, self]
      refine not_opposed_of_not_blocked (r := r) ?_ ?_ <;> rw [self]
      · exact bound
      · exact free
  | @wait k known new =>
    refine .head (.enqueue known new) (.single (.wait known ?_))
    rw [lock_set_self]
    rfl
  | pend known granted blocked => exact .single (.pend known granted blocked)
  | switch known granted free awards => exact .head (.switch known granted free) awards.grants.steps
  | mark known stays => exact .single (.mark known stays)
  | leave known canceling awards =>
    have known' := (Keeps.grants awards.grants).size.symm ▸ known
    exact .head (.leave known canceling) (awards.grants.steps.tail (.retire known'))

end Ledger
end LockManager
