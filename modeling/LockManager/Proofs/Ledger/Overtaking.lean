import LockManager.Proofs.Ledger.Passing

set_option autoImplicit false

/-!
Who overtakes a waiter. A lock that arrived later and stands against what the waiter wants is granted
past it only while the waiter has not been passed over too often, and is counted on the waiter then.
-/

namespace LockManager
namespace Ledger

/-- A lock that arrived after the waiter `l` is granted a mode that stands against what `l` waits
for. -/
def Overtakes (b b' : Ledger) (l k : LockId) : Prop :=
  l < k ∧ (b'.lock k).resource = (b.lock l).resource ∧ (b.lock k).grantedMode = none ∧
    (b'.lock k).grantedMode.any (fun held => conflicts held (b'.lock k).claim.policy
      (b.lock l).requestedMode (b.lock l).claim.policy) = true

instance (b b' : Ledger) (l k : LockId) : Decidable (b.Overtakes b' l k) :=
  inferInstanceAs (Decidable (_ ∧ _ ∧ _ ∧ _))

/-- Those who overtake the waiter `l` between `b` and `b'`. -/
def overtakers (b b' : Ledger) (l : LockId) : Finset LockId :=
  (Finset.range b'.size).filter (b.Overtakes b' l)

/-- The waiter `l` is charged with everyone who overtakes it, and never beyond `limit`. -/
structure Charged (limit : Nat) (l : LockId) (b b' : Ledger) : Prop where
  counted : (b.lock l).bypassed + (b.overtakers b' l).card ≤ (b'.lock l).bypassed
  capped : (b'.lock l).bypassed ≤ max (b.lock l).bypassed limit

variable {b b' : Ledger} {l : LockId}

theorem overtakers_eq_empty (barren : Barren b b') : b.overtakers b' l = ∅ := by
  apply Finset.filter_eq_empty_iff.mpr
  rintro j - ⟨-, -, none, granted⟩
  rw [barren j none] at granted
  cases granted

theorem outrunners_of_waiting (waits : (b.lock l).state = .waiting) :
    b.outrunners b' l = b.overtakers b' l := by
  refine Finset.filter_congr fun j _ => ?_
  rw [Outruns, Overtakes, waits]
  simp

/-- Whoever waits all along is charged with everyone that overtakes it in between. -/
theorem Shift.charged {brought : Option LockId} (c : b.Coherent) (known : l < b.size) {n : UInt32}
    (limited : b.config.bypassLimit = some n) (shift : Shift b brought b')
    (waits : (b.lock l).state = .waiting) (still : (b'.lock l).state = .waiting) :
    Charged n.toNat l b b' := by
  cases shift.course c known (by rw [still]; rfl) (by rw [still]; decide) with
  | stays tallied =>
    have capped := tallied.capped n limited
    have counted := congrArg Lock.bypassed tallied.lock
    rw [Lock.bypassed_iterate capped (Lock.limit_le_bypassCap n)] at counted
    rw [outrunners_of_waiting waits] at capped counted
    exact ⟨counted.ge, counted.symm ▸ capped⟩
  | moves new _ =>
    rw [waits] at new
    cases new
  | asks granted _ =>
    rw [waits] at granted
    cases granted

end Ledger
end LockManager
