import LockManager.Proofs.Ledger.Step

set_option autoImplicit false

/-!
A lock on its way out. Nothing that can happen to a ledger brings it back: it has no entries but those
it had when its cancel began, and loses them for good.
-/

namespace LockManager
namespace Ledger

/-- The lock is on its way out still, and has no entries but those it had. -/
structure Fades (l : LockId) (b b' : Ledger) : Prop where
  leaving : (b'.lock l).state.leaving = true
  entries : ∀ r, (b'.queues r).of l = (b.queues r).of l ∨ (b'.queues r).of l = {}

variable {b b' : Ledger} {k l : LockId}

namespace Fades

theorem refl (leaving : (b.lock l).state.leaving = true) : Fades l b b :=
  ⟨leaving, fun _ => .inl rfl⟩

theorem trans {b'' : Ledger} (first : Fades l b b') (second : Fades l b' b'') : Fades l b b'' := by
  refine ⟨second.leaving, fun r => ?_⟩
  rcases second.entries r with same | none
  · rw [same]
    exact first.entries r
  · exact .inr none

/-- A change of a lock that leaves its entries alone. -/
theorem set {x : Lock} (leaving : (b.lock l).state.leaving = true)
    (mine : k = l → x.state.leaving = true) : Fades l b (b.set k x) := by
  refine ⟨?_, fun _ => .inl rfl⟩
  by_cases same : l = k
  · rw [same, lock_set_self]
    exact mine same.symm
  · rw [lock_set_of_ne _ _ same]
    exact leaving

/-- A change of another lock and its entries. -/
theorem seat {x : Lock} {q : Queues} (leaving : (b.lock l).state.leaving = true) (other : l ≠ k)
    (entries : (b.home k).SameBut k q) : Fades l b (b.seat k x q) := by
  refine ⟨?_, fun r => .inl ?_⟩
  · rw [lock_seat_of_ne _ _ _ other]
    exact leaving
  · by_cases here : r = (b.lock k).resource
    · rw [here, queues_seat_self]
      exact entries l other
    · rw [queues_seat_of_ne _ _ _ here]

end Fades

theorem Step.grown (done : Step b b') : b.size ≤ b'.size := by
  cases done with
  | grant done => exact Nat.le_of_eq (Keeps.grant done).size.symm
  | register _ _ _ _ => exact Nat.le_succ _
  | _ => exact Nat.le_refl _

theorem Steps.grown (run : Steps b b') : b.size ≤ b'.size := by
  induction run with
  | refl => exact Nat.le_refl _
  | tail _ last ih => exact Nat.le_trans ih last.grown

/-- A lock that has not begun to leave is another one. -/
theorem ne_of_leaving (leaving : (b.lock l).state.leaving = true) {s : LockState}
    (state : (b.lock k).state = s) (stays : s.leaving = false) : l ≠ k := by
  rintro rfl
  rw [state, stays] at leaving
  cases leaving

namespace Coherent

theorem fades_grant (c : b.Coherent) {r : ResourceId} (done : Grant r b b')
    (leaving : (b.lock l).state.leaving = true) : Fades l b b' := by
  cases done with
  | pass _ _ => exact .set leaving fun same => same ▸ leaving
  | serve known _ waits _ =>
    apply Fades.seat leaving (ne_of_leaving leaving waits rfl)
    exact (Queues.sameBut_dropWaiting _ _).trans (Queues.sameBut_addGranted _ (c.named _ known))
  | complete known _ converts _ =>
    apply Fades.seat leaving (ne_of_leaving leaving converts rfl)
    exact (Queues.sameBut_dropConverting _ _).trans (Queues.sameBut_setGrantedMode _ _ _)

theorem fades_step (c : b.Coherent) (done : Step b b') (known : l < b.size)
    (leaving : (b.lock l).state.leaving = true) : Fades l b b' := by
  cases done with
  | grant done => exact c.fades_grant done leaving
  | @register x _ _ _ _ =>
    refine ⟨?_, fun _ => .inl rfl⟩
    have old : (b.extend x).lock l = b.lock l := Function.update_of_ne (Nat.ne_of_lt known) ..
    rw [old]
    exact leaving
  | rebind _ new _ _ =>
    exact .set leaving fun same => absurd same.symm (ne_of_leaving leaving new rfl)
  | enqueue _ new => exact .set leaving fun same => absurd same.symm (ne_of_leaving leaving new rfl)
  | accept known' enqueued _ =>
    apply Fades.seat leaving (ne_of_leaving leaving enqueued rfl)
    exact Queues.sameBut_addGranted _ (c.named _ known')
  | wait known' enqueued =>
    apply Fades.seat leaving (ne_of_leaving leaving enqueued rfl)
    exact Queues.sameBut_addWaiting _ (c.named _ known')
  | pend known' granted _ =>
    apply Fades.seat leaving (ne_of_leaving leaving granted rfl)
    exact Queues.sameBut_addConverting _ (c.named _ known')
  | switch _ granted _ =>
    exact .seat leaving (ne_of_leaving leaving granted rfl) (Queues.sameBut_setGrantedMode _ _ _)
  | mark _ _ => exact .set leaving fun _ => rfl
  | @leave k known' _ =>
    by_cases here : l = k
    · obtain rfl := here
      have gone := (c.leave known').seated l known'
      rw [Lock.Seated, Ledger.leave, lock_seat_self] at gone
      refine ⟨?_, fun r => .inr ?_⟩
      · rw [Ledger.leave, lock_seat_self]
        rfl
      · exact (c.leave known').home_of_empty known' gone.of_canceled.2 r
    · exact .seat leaving here (Queues.sameBut_remove _ _)
  | retire _ => exact .set leaving fun same => same ▸ leaving

theorem fades (c : b.Coherent) (run : Steps b b') (known : l < b.size)
    (leaving : (b.lock l).state.leaving = true) : Fades l b b' := by
  induction run with
  | refl => exact .refl leaving
  | tail before last ih =>
    exact ih.trans ((c.steps before).fades_step last (Nat.lt_of_lt_of_le known (Steps.grown before))
      ih.leaving)

end Coherent
end Ledger
end LockManager
