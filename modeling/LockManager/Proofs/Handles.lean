import LockManager.Proofs.Namespace.Operations
import LockManager.Proofs.Replays

set_option autoImplicit false

/-!
Whom a handle can name. However many slots the table of handles has had, a handle that resolves names
a lock that is not done with and bears that handle.
-/

namespace LockManager
namespace Namespace

/-- Whoever a handle resolves to is not done with and bears it. -/
def Names (ns : Namespace) : Prop :=
  ∀ h l, ns.handles.get? h = some l → ns.Alive l ∧ (ns.lock l).handle = h

variable {ns ns' : Namespace} {l : LockId}

namespace Names

theorem of_records {gone : LockId → Prop} (names : ns.Names) (records : Records ns ns' gone)
    (none : ∀ k, ¬gone k) (handles : ns'.handles = ns.handles) : ns'.Names := by
  intro h k found
  rw [handles] at found
  obtain ⟨alive, bears⟩ := names h k found
  refine ⟨records.alive_iff.mpr ⟨alive, none k⟩, ?_⟩
  unfold Lock.handle
  rw [records.claim]
  exact bears

theorem of_alike (names : ns.Names) (same : Alike ns ns') : ns'.Names := by
  have records : Records ns ns' fun _ => False := .of_alike same fun _ => id
  exact names.of_records records (fun _ => id) same.handles

/-- Who leaves gives back the handle that named it. -/
theorem leave (names : ns.Names) (records : Records ns ns' (l = ·))
    (handles : ns'.handles = ns.handles.remove (ns.lock l).handle) : ns'.Names := by
  intro h k found
  rw [handles, HandleTable.get?_remove] at found
  split at found
  · cases found
  · next other =>
    obtain ⟨alive, bears⟩ := names h k found
    refine ⟨records.alive_iff.mpr ⟨alive, ?_⟩, ?_⟩
    · rintro rfl
      exact other bears.symm
    · unfold Lock.handle
      rw [records.claim]
      exact bears

theorem addLock (names : ns.Names) (sound : ns.Sound) {req : LockRequest}
    (valid : req.policy.fault? = none) : (ns.addLock req).2.Names := by
  have size := (sound.addLock valid).size
  have lock := ns.lock_addLock req
  have handles := ns.handles_addLock req
  generalize (ns.addLock req).2 = ns' at size lock handles ⊢
  intro h k found
  rw [handles] at found
  unfold Alive
  rcases HandleTable.get?_of_insertWith found with old | ⟨rfl, rfl⟩
  · obtain ⟨alive, bears⟩ := names h k old
    rw [size, lock, if_neg (Nat.ne_of_lt alive.1)]
    exact ⟨⟨Nat.lt_succ_of_lt alive.1, alive.2⟩, bears⟩
  · rw [size, lock, if_pos rfl]
    exact ⟨⟨Nat.lt_succ_self _, rfl⟩, rfl⟩

end Names

theorem names_create {config : Config} (created : create config = .ok ns) : ns.Names := by
  obtain ⟨-, rfl⟩ := create_eq_ok.mp created
  intro h l found
  cases found

end Namespace

/-- All but `leave` leave handles alone. -/
theorem Stage.handles_carryOut {ns : Namespace} {r : ResourceId} {stage : Stage}
    (stays : ∀ l, stage ≠ .leave l) : (stage.carryOut ns r).space.handles = ns.handles := by
  by_cases forgets : ∃ owner, stage = .forget owner
  · obtain ⟨owner, rfl⟩ := forgets
    rfl
  · have keeps : ∀ owner, stage ≠ .forget owner := fun owner same => forgets ⟨owner, same⟩
    obtain ⟨handles, -⟩ := @Stage.answers_carryOut ns r stage stays keeps
    exact handles

theorem Opening.names {ns ns' : Namespace} {todo : List Stage} (opening : Opening ns todo ns')
    (names : ns.Names) (sound : ns.Sound) : ns'.Names := by
  cases opening with
  | still _ => exact names
  | register running valid new plain => exact names.addLock sound valid
  | @rebind _ k _ _ => exact names.of_alike (ns.alike_findOrCreate k)
  | @glimpse _ r _ _ => exact names.of_alike (ns.alike_addRef r)
  | evict owner => exact names.of_alike (ns.alike_silence _)
  | shutdown _ => exact names.of_alike ns.alike_beginShutdown

namespace System

variable {config : Config} {s t : System}

theorem Sound.names_step (sound : s.Sound) (names : s.space.Names) (step : Step s t) :
    t.space.Names := by
  rcases sound.change step with ⟨op, space⟩ | ⟨stage, q, ready, space⟩ | same
  · rw [space]
    exact (Task.opening_start s.space op).names names sound.space
  · rw [space]
    have records := ready.records sound.space
    by_cases leaves : ∃ l, stage = .leave l
    · obtain ⟨l, rfl⟩ := leaves
      have books := sound.space.books_leave ready.fits (ready.bound l _ rfl) (ready.going l rfl)
      have released := Progress.answers_releasing (s.space.leave l q) q none
      simp only [Stage.leave.injEq] at records
      exact names.leave records (released.1.trans books.1)
    · have stays : ∀ l, stage ≠ .leave l := fun l same => leaves ⟨l, same⟩
      exact names.of_records records stays (Stage.handles_carryOut stays)
  · exact names.of_alike same

theorem Reachable.names (reachable : Reachable config s) : s.space.Names := by
  induction reachable using Reachable.induction with
  | create created => exact Namespace.names_create created
  | step before last ih => exact before.sound.names_step ih last

/-- As long as no lock is made, whoever is in the table of handles was there before. -/
theorem Sound.live_of_size (sound : s.Sound) (step : Step s t)
    (size : t.space.locks.size = s.space.locks.size) {l : LockId} (live : l ∈ t.space.live) :
    l ∈ s.space.live := by
  unfold Namespace.live at live ⊢
  cases sound.turn step with
  | same _ handles _ => exact handles ▸ live
  | made valid _ space =>
    rw [space, (sound.space.addLock valid).size] at size
    exact absurd size (Nat.succ_ne_self _)
  | left _ _ _ handles _ =>
    rw [handles] at live
    exact HandleTable.mem_entries_remove live
  | forgot _ _ space =>
    rw [space] at live
    exact live

/-- As long as no lock is made, the table of handles does not grow. -/
theorem Sound.room_of_size (sound : s.Sound) (step : Step s t)
    (size : t.space.locks.size = s.space.locks.size) (room : s.space.Room) : t.space.Room := by
  unfold Namespace.Room at room ⊢
  cases sound.turn step with
  | same _ handles _ => exact handles ▸ room
  | made valid _ space =>
    rw [space, (sound.space.addLock valid).size] at size
    exact absurd size (Nat.succ_ne_self _)
  | left _ _ _ handles _ => rwa [handles, HandleTable.size_remove]
  | forgot _ _ space => exact (congrArg (·.handles.slots.size) space).trans_le room

/-- As long as no lock is made, no more requests are answered. -/
theorem Sound.replays_of_size (sound : s.Sound) (step : Step s t)
    (size : t.space.locks.size = s.space.locks.size) {k : Owner × UInt64} {h : Handle}
    (found : t.space.replays.get? k = some h) : s.space.replays.get? k = some h := by
  cases sound.turn step with
  | same _ _ replays => exact replays ▸ found
  | made valid _ space =>
    rw [space, (sound.space.addLock valid).size] at size
    exact absurd size (Nat.succ_ne_self _)
  | left _ _ _ _ replays => exact Namespace.get?_of_dropReplay (replays ▸ found)
  | forgot _ _ space =>
    rw [space] at found
    have kept := (Index.get?_restrict ..).symm.trans found
    split at kept
    · exact kept
    · cases kept

end System
end LockManager
