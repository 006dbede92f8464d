import LockManager.Proofs.StaleHandles

set_option autoImplicit false

/-!
No handle is issued twice while fewer locks are done with than a slot has generations. A slot gives out
its handles in order, so the one that comes next has been given out before only if the slot has gone
through all of its generations since.
-/

namespace LockManager

open HandleTable (Call)
open HandleTable.History (of)

/-- The handle that comes next is not out, and its slot shows no trace of it. -/
theorem HandleTable.status_upcoming {α : Type} {t : HandleTable α} (proper : t.Proper)
    (room : t.free = [] → t.slots.size < UInt32.size) : t.status t.upcoming = .unknown := by
  unfold status
  rcases History.upcoming_slot proper room with ⟨unused, -⟩ | freed
  · rw [unused]
  · rw [freed]
    simp

namespace Namespace

/-- The next lock's slot, if it is a new one, has a number that fits a handle. -/
def HasRoom (ns : Namespace) : Prop :=
  ns.handles.free = [] → ns.handles.slots.size < UInt32.size

instance (ns : Namespace) : Decidable ns.HasRoom := inferInstanceAs (Decidable (_ → _))

/-- The table of handles is what its past has made of it, and at most `n` locks are done with. -/
structure Issued (ns : Namespace) (n : Nat) : Prop where
  recalled : ∃ calls, ns.Recalls (of calls)
  few : ns.retiredHandles.length ≤ n

variable {ns ns' : Namespace} {l : LockId} {n : Nat}

namespace Issued

theorem mono (issued : ns.Issued n) {n' : Nat} (more : n ≤ n') : ns.Issued n' :=
  ⟨issued.recalled, Nat.le_trans issued.few more⟩

theorem fresh (issued : ns.Issued n) (rest : ns.Resting) (few : n < generations)
    (room : ns.HasRoom) : ns.Fresh := by
  refine ⟨room, fun k known same => ?_⟩
  obtain ⟨calls, recalls⟩ := issued.recalled
  have fits : (of calls).table.slots.size ≤ UInt32.size := recalls.table ▸ rest.room
  have proper : ns.handles.Proper := recalls.table ▸ (HandleTable.History.slotted_of calls fits).1
  have never := HandleTable.status_upcoming proper room
  rw [← same] at never
  cases gone : (ns.lock k).retired with
  | false =>
    rw [rest.status ⟨known, gone⟩] at never
    cases never
  | true =>
    have dead : ¬ns.Alive k := fun alive => Bool.false_ne_true (alive.2.symm.trans gone)
    have spent : ns.spent (ns.lock k).handle.index < generations :=
      Nat.lt_of_le_of_lt (Nat.le_trans (List.length_filter_le _ _) issued.few) few
    rw [recalls.status_of_gone rest.room known dead spent] at never
    cases never

/-- Nothing has been issued or freed. -/
theorem congr (issued : ns.Issued n) (handles : ns'.handles = ns.handles)
    (size : ns'.locks.size = ns.locks.size)
    (claim : ∀ k, (ns'.lock k).claim = (ns.lock k).claim)
    (retired : ∀ k < ns.locks.size, (ns'.lock k).retired = (ns.lock k).retired) : ns'.Issued n := by
  obtain ⟨⟨calls, table, removed⟩, few⟩ := issued
  have same := retiredHandles_congr size (fun k _ => claim k) retired
  refine ⟨⟨calls, table.trans handles.symm, ?_⟩, ?_⟩
  · rw [same]
    exact removed
  · rw [same]
    exact few

theorem addLock (issued : ns.Issued n) (rest : ns.Resting) {req : LockRequest}
    (valid : req.policy.fault? = none) : (ns.addLock req).2.Issued n := by
  obtain ⟨⟨calls, table, removed⟩, few⟩ := issued
  have same := retiredHandles_addLock rest.sound valid
  refine ⟨⟨calls ++ [.insert fun _ => ns.locks.size], ?_, ?_⟩, ?_⟩
  · rw [HandleTable.History.of_append, handles_addLock, ← table]
    rfl
  · rw [HandleTable.History.of_append, same]
    exact removed
  · rw [same]
    exact few

theorem cancelLock (issued : ns.Issued n) (rest : ns.Resting) (alive : ns.Alive l) :
    (ns.cancelLock l).Issued (n + 1) := by
  obtain ⟨⟨calls, table, removed⟩, few⟩ := issued
  obtain ⟨deals, gone⟩ := rest.cancelLock alive
  have left := retiredHandles_leave deals.size (fun k _ => deals.claim k) alive gone fun k _ other =>
    (deals.spared k other).retired
  have live : ((of calls).table.get? (ns.lock l).handle).isSome := by
    rw [table, rest.get?_iff.mpr ⟨alive, rfl⟩]
    rfl
  refine ⟨⟨calls ++ [.remove (ns.lock l).handle], ?_, ?_⟩, ?_⟩
  · rw [HandleTable.History.of_append, rest.handles_cancelLock alive, ← table]
    rfl
  · have more : (of (calls ++ [.remove (ns.lock l).handle])).removed =
        (of calls).removed ++ [(ns.lock l).handle] := by
      rw [HandleTable.History.of_append]
      simp [HandleTable.History.call, live]
    rw [more]
    exact (List.perm_append_singleton _ _).trans ((removed.cons _).trans left.symm)
  · rw [left.length_eq]
    exact Nat.succ_le_succ few

end Issued
end Namespace
end LockManager
