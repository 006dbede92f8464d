import LockManager.Proofs.CancelPriority
import LockManager.Proofs.HandleTable.Churn
import LockManager.Proofs.Namespace.Operations

set_option autoImplicit false

/-!
Handles of locks that are done with. A namespace makes and drops locks by calls on its table of handles,
so what the table still knows about its past decides what is answered to whoever cancels by a handle
that was canceled before.
-/

namespace LockManager

open HandleTable (Call)
open HandleTable.History (of)

namespace Namespace

/-- Of the locks that are done with, the oldest lock's first. -/
def retiredHandles (ns : Namespace) : List Handle :=
  ((List.range ns.locks.size).filter fun l => (ns.lock l).retired).map fun l => (ns.lock l).handle

/-- How many locks are done with whose handles had slot `i`. -/
def spent (ns : Namespace) (i : UInt32) : Nat := (ns.retiredHandles.filter (·.index = i)).length

/-- The handles removed from the table are those of the locks that are done with. -/
structure Recalls (ns : Namespace) (s : HandleTable.History LockId) : Prop where
  table : s.table = ns.handles
  removed : s.removed.Perm ns.retiredHandles

variable {ns ns' : Namespace} {s : HandleTable.History LockId} {l k : LockId}

theorem retiredHandles_congr (size : ns'.locks.size = ns.locks.size)
    (claim : ∀ k < ns.locks.size, (ns'.lock k).claim = (ns.lock k).claim)
    (retired : ∀ k < ns.locks.size, (ns'.lock k).retired = (ns.lock k).retired) :
    ns'.retiredHandles = ns.retiredHandles := by
  have same : (List.range ns.locks.size).filter (fun k => (ns'.lock k).retired)
      = (List.range ns.locks.size).filter fun k => (ns.lock k).retired :=
    List.filter_congr fun k inside => retired k (List.mem_range.1 inside)
  rw [retiredHandles, retiredHandles, size, same]
  apply List.map_congr_left
  intro k inside
  exact congrArg Claim.handle (claim k (List.mem_range.1 (List.mem_filter.1 inside).1))

/-- One lock that leaves adds its handle. -/
theorem retiredHandles_leave (size : ns'.locks.size = ns.locks.size)
    (claim : ∀ k < ns.locks.size, (ns'.lock k).claim = (ns.lock k).claim) (alive : ns.Alive l)
    (gone : (ns'.lock l).retired = true)
    (retired : ∀ k < ns.locks.size, k ≠ l → (ns'.lock k).retired = (ns.lock k).retired) :
    ns'.retiredHandles.Perm ((ns.lock l).handle :: ns.retiredHandles) := by
  have stays : l ∉ (List.range ns.locks.size).filter fun k => (ns.lock k).retired := by
    simp [alive.2]
  have locks : ((List.range ns.locks.size).filter fun k => (ns'.lock k).retired).Perm
      (l :: (List.range ns.locks.size).filter fun k => (ns.lock k).retired) := by
    apply (List.perm_ext_iff_of_nodup (List.nodup_range.filter _)
      (List.nodup_cons.2 ⟨stays, List.nodup_range.filter _⟩)).2
    intro k
    simp only [List.mem_filter, List.mem_range, List.mem_cons]
    by_cases here : k = l
    · simp [here, gone, alive.1]
    · simp only [here, false_or]
      exact and_congr_right fun known => by rw [retired k known here]
  have handles : ns'.retiredHandles
      = ((List.range ns.locks.size).filter fun k => (ns'.lock k).retired).map
          fun k => (ns.lock k).handle := by
    rw [retiredHandles, size]
    apply List.map_congr_left
    intro k inside
    exact congrArg Claim.handle (claim k (List.mem_range.1 (List.mem_filter.1 inside).1))
  rw [handles]
  exact locks.map fun k => (ns.lock k).handle

theorem retiredHandles_addLock (sound : ns.Sound) {req : LockRequest}
    (valid : req.policy.fault? = none) : (ns.addLock req).2.retiredHandles = ns.retiredHandles := by
  have old : ∀ k < ns.locks.size, (ns.addLock req).2.lock k = ns.lock k := fun k known =>
    lock_addLock_of_lt known req
  have new : ((ns.addLock req).2.lock ns.locks.size).retired = false := by
    rw [lock_addLock, if_pos rfl]
    rfl
  have same : (List.range ns.locks.size).filter (fun k => ((ns.addLock req).2.lock k).retired)
      = (List.range ns.locks.size).filter fun k => (ns.lock k).retired :=
    List.filter_congr fun k inside => by rw [old k (List.mem_range.1 inside)]
  rw [retiredHandles, retiredHandles, (sound.addLock valid).size, List.range_succ,
    List.filter_append, same, List.filter_singleton, new, cond_false, List.append_nil]
  apply List.map_congr_left
  intro k inside
  rw [old k (List.mem_range.1 (List.mem_filter.1 inside).1)]

theorem Sound.retired_eq_false_iff (sound : ns.Sound) (room : ns.Room) (known : l < ns.locks.size) :
    (ns.lock l).retired = false ↔ ns.handles.get? (ns.lock l).handle = some l := by
  rw [(sound.handles room).2]
  simp [known]

theorem mem_retiredHandles (known : l < ns.locks.size) (gone : ¬ns.Alive l) :
    (ns.lock l).handle ∈ ns.retiredHandles := by
  have retired : (ns.lock l).retired = true :=
    Bool.eq_true_of_not_eq_false fun stays => gone ⟨known, stays⟩
  exact List.mem_map_of_mem (List.mem_filter.2 ⟨List.mem_range.2 known, retired⟩)

theorem Recalls.frees (recalls : ns.Recalls s) (i : UInt32) : s.frees i = ns.spent i :=
  (recalls.removed.filter _).length_eq

theorem Recalls.status_of_gone {calls : List (Call LockId)} (recalls : ns.Recalls (of calls))
    (room : ns.Room) (known : l < ns.locks.size) (gone : ¬ns.Alive l)
    (few : ns.spent (ns.lock l).handle.index < generations) :
    ns.handles.status (ns.lock l).handle = .retired := by
  have room : (of calls).table.slots.size ≤ UInt32.size := recalls.table ▸ room
  rw [← recalls.frees] at few
  rw [← recalls.table]
  have removed := recalls.removed.symm.subset (mem_retiredHandles known gone)
  have slotted := (HandleTable.History.slotted_of calls room).2 (ns.lock l).handle.index
  apply (slotted.tells few).retired.2
  exact ⟨HandleTable.History.exists_issued_of_removed calls room removed, removed⟩

end Namespace

namespace System

variable {config : Config} {s t u : System} {l : LockId} {calls : List (Call LockId)}

/-- The same locks live as before if the table of handles is the same. -/
theorem Sound.retiredHandles_eq (sound : s.Sound) (step : Step s t) (room : t.space.Room)
    (size : t.space.locks.size = s.space.locks.size)
    (handles : t.space.handles = s.space.handles) :
    t.space.retiredHandles = s.space.retiredHandles := by
  have lasts : ∀ k < s.space.locks.size, Lasts s t k := fun k => sound.lasts step
  have room' : s.space.Room := (sound.turn step).room room
  apply Namespace.retiredHandles_congr size fun k known => (lasts k known).claim
  intro k known
  have handle : (t.space.lock k).handle = (s.space.lock k).handle :=
    congrArg Claim.handle (lasts k known).claim
  have before := sound.space.retired_eq_false_iff room' known
  have after := (sound.step step).space.retired_eq_false_iff room (lasts k known).known
  rw [handles, handle, ← before] at after
  exact Bool.eq_iff_iff.2 (by simpa using not_congr after)

/-- When a lock leaves, the same others live as before. -/
theorem Sound.retired_eq_of_left {k : LockId} (sound : s.Sound) (step : Step s t)
    (room : t.space.Room) (alive : s.space.Alive l)
    (handles : t.space.handles = s.space.handles.remove (s.space.lock l).handle)
    (known : k < s.space.locks.size) (other : k ≠ l) :
    (t.space.lock k).retired = (s.space.lock k).retired := by
  have lasts : Lasts s t k := sound.lasts step known
  have room' : s.space.Room := (sound.turn step).room room
  have live := (sound.space.retired_eq_false_iff room' alive.1).1 alive.2
  have handle : (t.space.lock k).handle = (s.space.lock k).handle := congrArg Claim.handle lasts.claim
  have before := sound.space.retired_eq_false_iff room' known
  have after := (sound.step step).space.retired_eq_false_iff room lasts.known
  rw [handles, handle, HandleTable.get?_remove] at after
  split at after
  · next same =>
    -- nobody else resolves by the handle of the lock that leaves
    rw [same, live, Option.some.injEq] at before
    have gone : (s.space.lock k).retired = true := by
      simpa using mt before.1 (Ne.symm other)
    rw [gone]
    simpa using after
  · rw [← before] at after
    exact Bool.eq_iff_iff.2 (by simpa using not_congr after)

theorem Sound.recalls_step (sound : s.Sound) (step : Step s t) (room : t.space.Room)
    (recalls : s.space.Recalls (of calls)) : ∃ more, t.space.Recalls (of (calls ++ more)) := by
  have lasts : ∀ k < s.space.locks.size, Lasts s t k := fun k => sound.lasts step
  have turn := sound.turn step
  have room' : s.space.Room := turn.room room
  cases turn with
  | same size handles replays =>
    refine ⟨[], ?_⟩
    rw [List.append_nil]
    exact ⟨recalls.table.trans handles.symm,
      sound.retiredHandles_eq step room size handles ▸ recalls.removed⟩
  | @made req valid new space =>
    refine ⟨[.insert fun _ => s.space.locks.size], ?_, ?_⟩
    · rw [HandleTable.History.of_append, space, Namespace.handles_addLock, ← recalls.table]
      rfl
    · rw [HandleTable.History.of_append, space, Namespace.retiredHandles_addLock sound.space valid]
      exact recalls.removed
  | @left l alive gone size handles replays =>
    have live := (sound.space.retired_eq_false_iff room' alive.1).1 alive.2
    have departed : (t.space.lock l).retired = true :=
      Bool.eq_true_of_not_eq_false fun stays => gone ⟨size.symm ▸ alive.1, stays⟩
    have others : ∀ k < s.space.locks.size, k ≠ l →
        (t.space.lock k).retired = (s.space.lock k).retired := fun k known other =>
      sound.retired_eq_of_left step room alive handles known other
    refine ⟨[.remove (s.space.lock l).handle], ?_, ?_⟩
    · rw [HandleTable.History.of_append, handles, ← recalls.table]
      rfl
    · have removed : (of (calls ++ [.remove (s.space.lock l).handle])).removed
          = (of calls).removed ++ [(s.space.lock l).handle] := by
        rw [HandleTable.History.of_append]
        simp [HandleTable.History.call, recalls.table, live]
      rw [removed]
      have left := Namespace.retiredHandles_leave size (fun k known => (lasts k known).claim) alive
        departed others
      exact (List.perm_append_singleton _ _).trans ((recalls.removed.cons _).trans left.symm)
  | forgot todo done space =>
    refine ⟨[], ?_⟩
    rw [List.append_nil]
    have handles : t.space.handles = s.space.handles := by
      rw [space]
      rfl
    have size : t.space.locks.size = s.space.locks.size := by
      rw [space]
      rfl
    exact ⟨recalls.table.trans handles.symm,
      sound.retiredHandles_eq step room size handles ▸ recalls.removed⟩

theorem Reachable.recalls (reachable : Reachable config s) (room : s.space.Room) :
    ∃ calls, s.space.Recalls (of calls) := by
  induction reachable using Reachable.induction with
  | create created =>
    obtain ⟨-, rfl⟩ := Namespace.create_eq_ok.mp created
    exact ⟨[], rfl, .refl _⟩
  | step before last ih =>
    obtain ⟨calls, recalls⟩ := ih ((before.sound.turn last).room room)
    obtain ⟨more, recalls⟩ := before.sound.recalls_step last room recalls
    exact ⟨_, recalls⟩

theorem Reachable.status_of_gone (reachable : Reachable config s) (room : s.space.Room)
    (known : l < s.space.locks.size) (gone : ¬s.space.Alive l)
    (few : s.space.spent (s.space.lock l).handle.index < generations) :
    s.space.handles.status (s.space.lock l).handle = .retired := by
  obtain ⟨calls, recalls⟩ := reachable.recalls room
  exact recalls.status_of_gone room known gone few

theorem Sound.claim_of_reaches (sound : s.Sound) (run : Reaches s t)
    (known : l < s.space.locks.size) : (t.space.lock l).claim = (s.space.lock l).claim := by
  induction run with
  | refl => rfl
  | step before last ih =>
    have known' := Nat.lt_of_lt_of_le known (sound.grown before)
    exact ((sound.reaches before).lasts last known').claim.trans ih

theorem Sound.gone_of_reaches (sound : s.Sound) (run : Reaches s t)
    (known : l < s.space.locks.size) (gone : ¬s.space.Alive l) : ¬t.space.Alive l := by
  induction run with
  | refl => exact gone
  | step before last ih =>
    have known' := Nat.lt_of_lt_of_le known (sound.grown before)
    exact mt ((sound.reaches before).lasts last known').alive ih

/-- A cancel ends after its lock. -/
theorem Reachable.gone_of_canceled (reachable : Reachable config s)
    (known : l < s.space.locks.size) (run : Reaches (s.start (.cancel (s.space.lock l).handle)) t)
    (room : t.space.Room) (finished : (t.task s.tasks.size).finished = true) :
    ¬t.space.Alive l := by
  have step : Step s (s.start (.cancel (s.space.lock l).handle)) := .start s _
  have before : s.space.Room := reachable.sound.room_of_reaches ((Reaches.single step).trans run) room
  have mine : s.tasks.size < (s.start (.cancel (s.space.lock l).handle)).tasks.size :=
    Nat.lt_of_lt_of_eq (Nat.lt_succ_self _) (Arena.size_alloc ..).symm
  have pursues := (reachable.sound.step step).pursues_reaches
    (Nat.lt_of_lt_of_le known (reachable.sound.grows step)) mine
    (reachable.pursues_start before known) run
  intro alive
  obtain ⟨stage, member, -⟩ := pursues alive
  rw [List.isEmpty_iff.1 finished] at member
  cases member

/-- A cancel by the handle is answered with success and does nothing. -/
def CanceledBefore (ns : Namespace) (h : Handle) : Prop :=
  ns.cancel h = (.ok .canceled, ns) ∧
    Task.start ns (.cancel h) = (Task.answered (.ok (.canceled .canceled)), ns)

theorem Reachable.canceledBefore (reachable : Reachable config s) (room : s.space.Room)
    (known : l < s.space.locks.size) (gone : ¬s.space.Alive l)
    (few : s.space.spent (s.space.lock l).handle.index < generations) :
    CanceledBefore s.space (s.space.lock l).handle := by
  have retired := reachable.status_of_gone room known gone few
  constructor
  · simp only [Namespace.cancel, retired]
  · simp only [Task.start, retired]

/-- The status of a slot's handles is right until the slot has been freed as often as it has
generations, and not any more then; before, no handle that was removed resolves or is issued again.
So whoever cancels a lock that is done with, or was canceled with success before, is told that it is
canceled, and nothing else happens, while fewer locks than that have had the slot and are done with. -/
theorem handles_stay_stale {α : Type} (calls : List (Call α))
    (room : (of calls).table.slots.size ≤ UInt32.size) (reachable : Reachable config s) :
    (∀ i, (∀ h, h.index = i → (of calls).Tells h) ↔ (of calls).frees i < generations) ∧
    (∀ before later h, calls = before ++ later → (of calls).frees h.index < generations →
      h ∈ (of before).removed →
        (of calls).table.get? h = none ∧
          h ∉ ((of calls).issued.drop (of before).issued.length).map Prod.fst) ∧
    (s.space.Room → ∀ l, l < s.space.locks.size → ¬s.space.Alive l →
      s.space.spent (s.space.lock l).handle.index < generations →
        CanceledBefore s.space (s.space.lock l).handle) ∧
    ∀ (t u : System) (l : LockId) (answer : Answer), l < s.space.locks.size →
      Reaches (s.start (.cancel (s.space.lock l).handle)) t →
      (t.task s.tasks.size).finished = true →
      (t.task s.tasks.size).outcome = some (.ok answer) → Reaches t u → u.space.Room →
      u.space.spent (s.space.lock l).handle.index < generations →
        CanceledBefore u.space (s.space.lock l).handle := by
  refine ⟨?_, ?_, ?_, ?_⟩
  · intro i
    exact HandleTable.History.tells_iff calls room i
  · rintro before later h rfl few gone
    exact HandleTable.History.stale_after before later room few gone
  · intro room l known gone few
    exact reachable.canceledBefore room known gone few
  · intro t u l answer known run finished _ rest room few
    have step : Step s (s.start (.cancel (s.space.lock l).handle)) := .start s _
    have first : Reaches s t := (Reaches.single step).trans run
    have whole : Reaches s u := first.trans rest
    have sound := reachable.sound
    have known' : l < t.space.locks.size := Nat.lt_of_lt_of_le known (sound.grown first)
    have room' : t.space.Room := (sound.reaches first).room_of_reaches rest room
    have gone := reachable.gone_of_canceled known run room' finished
    have handle : (u.space.lock l).handle = (s.space.lock l).handle :=
      congrArg Claim.handle (sound.claim_of_reaches whole known)
    rw [← handle] at few ⊢
    apply (reachable.reaches whole).canceledBefore room _ _ few
    · exact Nat.lt_of_lt_of_le known (sound.grown whole)
    · exact (sound.reaches first).gone_of_reaches rest known' gone

/-- An exclusive lock, held. -/
def heldOnce : System :=
  (fresh {}).follow
    (Move.through (.enqueue { key := ⟨1, 0⟩, mode := .exclusive, owner := ⟨"a"⟩ }) 0)

def heldOnceCanceled : System :=
  (heldOnce.start (.cancel ⟨0, 1⟩)).follow
    [.carryOut 1, .take 1, .take 1, .carryOut 1, .take 1, .carryOut 1]

/-- The slot of the lock has been given to another one. -/
def slotReused : System :=
  heldOnceCanceled.follow
    (Move.through (.enqueue { key := ⟨2, 0⟩, mode := .exclusive, owner := ⟨"b"⟩ }) 2)

/-- The old handle is as good as canceled, although its slot is in use. -/
theorem handles_stay_stale_reused :
    let calls := HandleTable.History.rounds 1 ++ [.insert fun _ => ()]
    (∀ h, h.index = 0 → (of calls).Tells h) ∧ (of calls).table.get? ⟨0, 1⟩ = none ∧
      CanceledBefore heldOnceCanceled.space ⟨0, 1⟩ ∧
      (slotReused.space.lock 1).handle = ⟨0, 2⟩ ∧ slotReused.space.Alive 1 ∧
      CanceledBefore slotReused.space ⟨0, 1⟩ := by
  intro calls
  have reachable : Reachable {} heldOnce := reachable_follow rfl _
  have canceled : Reaches (heldOnce.start (.cancel ⟨0, 1⟩)) heldOnceCanceled := reaches_follow _ _
  have reused : Reaches heldOnceCanceled slotReused := reaches_follow _ _
  have all : Reaches heldOnce heldOnceCanceled := (Reaches.single (.start heldOnce _)).trans canceled
  have room : (of calls).table.slots.size ≤ UInt32.size := by decide +kernel
  obtain ⟨tells, stale, gone, -⟩ := handles_stay_stale calls room (reachable.reaches all)
  obtain ⟨-, -, -, answered⟩ := handles_stay_stale calls room reachable
  refine ⟨?_, ?_, ?_, by decide +kernel, by decide +kernel, ?_⟩
  · exact (tells 0).2 (by decide +kernel)
  · have past := stale (HandleTable.History.rounds 1) _ ⟨0, 1⟩ rfl (by decide +kernel)
      (by decide +kernel)
    exact past.1
  · exact gone (by decide +kernel) 0 (by decide +kernel) (by decide +kernel) (by decide +kernel)
  · exact answered heldOnceCanceled slotReused 0 (.canceled .canceled) (by decide +kernel) canceled
      (by decide +kernel) (by decide +kernel) reused (by decide +kernel) (by decide +kernel)

end System

end LockManager
