import LockManager.Proofs.CancelPriority
import LockManager.Proofs.Ledger.Passing
import LockManager.Proofs.Namespace.Operations
import LockManager.Proofs.System.Schedule

set_option autoImplicit false

/-!
What the count of passes on a lock says. While it waits, for its first grant or for another mode, the
count is the number of locks that have been granted past it since, and it does not exceed the limit.
-/

namespace LockManager

theorem Opening.untold {ns ns' : Namespace} {todo : List Stage} (opening : Opening ns todo ns')
    {l : LockId} (absent : ¬l < ns.locks.size) :
    (ns'.lock l).state = .new ∧ (ns'.lock l).bypassed = 0 := by
  have still {ns' : Namespace} (size : ns'.locks.size = ns.locks.size) :
      (ns'.lock l).state = .new ∧ (ns'.lock l).bypassed = 0 := by
    rw [Namespace.lock_beyond (size ▸ absent)]
    exact ⟨rfl, rfl⟩
  cases opening with
  | still _ => exact still rfl
  | register _ _ _ _ =>
    rw [Namespace.lock_addLock]
    split
    · exact ⟨rfl, rfl⟩
    · exact still rfl
  | rebind _ _ => exact still (ns.alike_findOrCreate _).size
  | glimpse _ _ => exact still rfl
  | evict owner => exact still (ns.alike_silence _).size
  | shutdown _ => exact still ns.alike_beginShutdown.size

namespace System

open Ledger (Booked)

variable {config : Config} {s t : System} {l : LockId} {past : Finset LockId}

/-- A run, and those who have been granted past `l` since it has been in the state it is in. -/
inductive Passing (config : Config) (l : LockId) : Finset LockId → System → Prop where
  | init {ns : Namespace} (created : Namespace.create config = .ok ns) :
      Passing config l ∅ { space := ns }
  | step {past : Finset LockId} {s t : System} (before : Passing config l past s) (last : Step s t) :
      Passing config l (s.space.ledger.onward t.space.ledger l past) t

namespace Passing

theorem reachable (passing : Passing config l past s) : Reachable config s := by
  induction passing with
  | init created => exact ⟨_, created, .refl⟩
  | step _ last ih => exact ih.reaches (.single last)

end Passing

theorem Reachable.exists_passing (reachable : Reachable config s) (l : LockId) :
    ∃ past, Passing config l past s := by
  induction reachable using Reachable.induction with
  | create created => exact ⟨∅, .init created⟩
  | step _ last ih =>
    obtain ⟨past, passing⟩ := ih
    exact ⟨_, .step passing last⟩

/-! ### New locks -/

/-- A lock that was not there before is new, and has not been passed over. -/
theorem Sound.untold (sound : s.Sound) (step : Step s t) (absent : ¬l < s.space.locks.size) :
    (t.space.lock l).state = .new ∧ (t.space.lock l).bypassed = 0 := by
  have still {ns : Namespace} (size : ns.locks.size = s.space.locks.size) :
      (ns.lock l).state = .new ∧ (ns.lock l).bypassed = 0 := by
    rw [Namespace.lock_beyond (size ▸ absent)]
    exact ⟨rfl, rfl⟩
  rcases sound.change step with ⟨op, space⟩ | ⟨stage, r, ready, space⟩ | same
  · rw [space]
    exact (Task.opening_start s.space op).untold absent
  · exact still (space ▸ (ready.effect sound.space).size)
  · exact still same.size

/-! ### What the count says -/

theorem booked_init {ns : Namespace} (created : Namespace.create config = .ok ns) (l : LockId) :
    Booked config.bypassLimit l ∅ ns.ledger := by
  have none : ¬l < ns.locks.size := by
    obtain ⟨-, rfl⟩ := Namespace.create_eq_ok.mp created
    exact Nat.not_lt_zero l
  have fresh : ns.ledger.lock l = (default : Lock).outline :=
    congrArg Lock.outline (Namespace.lock_beyond none)
  refine .of_none nofun ?_ fun _ => rfl
  rw [fresh]
  rfl

theorem Passing.booked (passing : Passing config l past s) :
    Booked config.bypassLimit l past s.space.ledger := by
  induction passing with
  | init created => exact booked_init created l
  | @step past s t before last ih =>
    have reachable := before.reachable
    have sound := reachable.sound
    have c := sound.space.ledger.coherent
    obtain ⟨brought, shift⟩ := sound.shift last
    by_cases known : l < s.space.locks.size
    · exact ih.shift c known (congrArg Config.bypassLimit reachable.config_eq) shift
    · obtain ⟨new, none⟩ := sound.untold last known
      refine .of_none (ih.started_onward c shift.steps) none fun pends => ?_
      rw [Lock.Pends, show (t.space.ledger.lock l).state = .new from new] at pends
      simp at pends

/-- The count of passes on a lock that waits, for its first grant or for another mode, is the number of
locks that have been granted past it since it began to, as far as there is room for it, and it never
exceeds the limit. -/
theorem passes_counted (reachable : Reachable config s) (l : LockId) :
    (∃ past, Passing config l past s) ∧
      ∀ past, Passing config l past s → (s.space.lock l).Pends →
        (s.space.lock l).bypassed = min past.card Lock.bypassCap ∧
          ∀ n, config.bypassLimit = some n →
            past.card ≤ n.toNat ∧ (s.space.lock l).bypassed ≤ n.toNat := by
  refine ⟨reachable.exists_passing l, fun past passing pends => ?_⟩
  have booked := passing.booked
  have counted : (s.space.lock l).bypassed = min past.card Lock.bypassCap := booked.counted pends
  refine ⟨counted, fun n some => ?_⟩
  have limited := booked.limited n some pends
  exact ⟨limited, counted.trans_le ((Nat.min_le_left ..).trans limited)⟩

/-- Two readers hold the resource, and one of them waits to write; so does a third owner, that was there
before the second reader. A third reader has been granted past both. -/
def readersPast : System :=
  (fresh { bypassLimit := some 2 }).follow
    (Move.through (.enqueue { key := ⟨1, 0⟩, mode := .protectedRead, owner := ⟨"a"⟩ }) 0 ++
      Move.through (.enqueue { key := ⟨1, 0⟩, mode := .exclusive, owner := ⟨"b"⟩ }) 1 ++
      Move.through (.enqueue { key := ⟨1, 0⟩, mode := .protectedRead, owner := ⟨"c"⟩ }) 2 ++
      Move.through (.convert ⟨0, 1⟩ .exclusive) 3 ++
      Move.through (.enqueue { key := ⟨1, 0⟩, mode := .protectedRead, owner := ⟨"d"⟩ }) 4)

/-- One reader has been granted past the conversion, and two past the waiter. -/
theorem passes_counted_readers :
    (∃ past, Passing { bypassLimit := some 2 } 0 past readersPast ∧ past.card = 1) ∧
      ∃ past, Passing { bypassLimit := some 2 } 1 past readersPast ∧ past.card = 2 := by
  have reachable : Reachable { bypassLimit := some 2 } readersPast := reachable_follow rfl _
  constructor
  · obtain ⟨⟨past, passing⟩, counted⟩ := passes_counted reachable 0
    have count := (counted past passing (by decide +kernel)).1
    rw [show (readersPast.space.lock 0).bypassed = 1 by decide +kernel] at count
    refine ⟨past, passing, ?_⟩
    unfold Lock.bypassCap UInt32.size at count
    omega
  · obtain ⟨⟨past, passing⟩, counted⟩ := passes_counted reachable 1
    have count := (counted past passing (by decide +kernel)).1
    rw [show (readersPast.space.lock 1).bypassed = 2 by decide +kernel] at count
    refine ⟨past, passing, ?_⟩
    unfold Lock.bypassCap UInt32.size at count
    omega

end System
end LockManager
