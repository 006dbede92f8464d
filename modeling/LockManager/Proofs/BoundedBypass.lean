import LockManager.Proofs.CancelPriority
import LockManager.Proofs.Ledger.Overtaking

set_option autoImplicit false

/-!
How often a waiter can be overtaken. Each lock that is granted past it is counted on it, and once the
count has reached the limit no later arrival that stands against it is granted any more.
-/

namespace LockManager

open Ledger (Charged)

namespace System

variable {config : Config} {s t : System} {l : LockId} {m : Nat} {n : UInt32}

/-- Those who overtake the waiter `l` in a step from `s` to `t`. -/
def overtakers (s t : System) (l : LockId) : Finset LockId :=
  s.space.ledger.overtakers t.space.ledger l

theorem Sound.charged (sound : s.Sound) (limited : s.space.config.bypassLimit = some n)
    (waits : (s.space.lock l).state = .waiting) (still : (t.space.lock l).state = .waiting)
    (step : Step s t) : Charged n.toNat l s.space.ledger t.space.ledger := by
  have known : l < s.space.locks.size := by
    by_contra beyond
    rw [Namespace.lock_beyond beyond] at waits
    cases waits
  obtain ⟨brought, shift⟩ := sound.shift step
  exact shift.charged sound.space.ledger.coherent known limited waits still

/-- A run during which `l` waits all the time and is overtaken so many times. -/
inductive Waits (l : LockId) (s : System) : Nat → System → Prop where
  | refl (waits : (s.space.lock l).state = .waiting) : Waits l s 0 s
  | step {m : Nat} {t u : System} (before : Waits l s m t) (last : Step t u)
      (waits : (u.space.lock l).state = .waiting) : Waits l s (m + (overtakers t u l).card) u

namespace Waits

theorem waiting (stay : Waits l s m t) : (t.space.lock l).state = .waiting := by
  cases stay <;> assumption

theorem reaches (stay : Waits l s m t) : Reaches s t := by
  induction stay with
  | refl _ => exact .refl
  | step _ last _ ih => exact .step ih last

theorem move (stay : Waits l s m t) (mv : Move)
    (waits : ((t.move mv).space.lock l).state = .waiting) :
    Waits l s (m + (overtakers t (t.move mv) l).card) (t.move mv) := by
  have idle : Waits l s (m + (overtakers t t l).card) t := by
    rw [overtakers, Ledger.overtakers_eq_empty fun _ => id]
    exact stay
  cases mv with
  | start op => exact .step stay (.start t op) waits
  | take i =>
    simp only [System.move] at waits ⊢
    cases taken : t.take? i with
    | none => exact idle
    | some u =>
      rw [taken] at waits
      exact .step stay (.take i taken) waits
  | carryOut i =>
    simp only [System.move] at waits ⊢
    cases done : t.carryOut? i with
    | none => exact idle
    | some u =>
      rw [done] at waits
      exact .step stay (.carryOut i done) waits

/-- Everyone who has overtaken the waiter has been counted on it, and the count is capped. -/
theorem counted (reachable : Reachable config s) (limited : config.bypassLimit = some n)
    (stay : Waits l s m t) :
    (s.space.lock l).bypassed + m ≤ (t.space.lock l).bypassed ∧
      (t.space.lock l).bypassed ≤ max (s.space.lock l).bypassed n.toNat := by
  induction stay with
  | refl _ => exact ⟨Nat.le_refl _, Nat.le_max_left _ _⟩
  | @step m t u before last waits ih =>
    have reached := reachable.reaches before.reaches
    have charged := reached.sound.charged (reached.config_eq ▸ limited) before.waiting waits last
    have counted : (t.space.lock l).bypassed + (overtakers t u l).card ≤
      (u.space.lock l).bypassed := charged.counted
    have capped : (u.space.lock l).bypassed ≤ max (t.space.lock l).bypassed n.toNat :=
      charged.capped
    omega

end Waits

/-- During one uninterrupted stay in a waiting queue, until a cancel of it begins, a lock is overtaken
by at most as many later arrivals as the limit allows. -/
theorem overtaken_at_most (limited : config.bypassLimit = some n) (reachable : Reachable config s)
    (stay : Waits l s m t) : m ≤ n.toNat := by
  obtain ⟨counted, capped⟩ := stay.counted reachable limited
  omega

/-- A writer waits for a reader, and may be overtaken once. -/
def writerWaiting : System :=
  (fresh { bypassLimit := some 1 }).follow
    (Move.through (.enqueue { key := ⟨1, 0⟩, mode := .protectedRead, owner := ⟨"a"⟩ }) 0 ++
      Move.through (.enqueue { key := ⟨1, 0⟩, mode := .exclusive, owner := ⟨"b"⟩ }) 1)

/-- It is overtaken by a second reader then. -/
theorem overtaken_at_most_once :
    ∃ m t, Waits 1 writerWaiting m t ∧ m = 1 ∧ m ≤ (1 : UInt32).toNat := by
  have waits : (writerWaiting.space.lock 1).state = .waiting := by decide +kernel
  have stay := ((((Waits.refl waits).move
    (.start (.enqueue { key := ⟨1, 0⟩, mode := .protectedRead, owner := ⟨"c"⟩ }))
    (by decide +kernel)).move (.take 2) (by decide +kernel)).move (.take 2) (by decide +kernel)).move
    (.carryOut 2) (by decide +kernel)
  exact ⟨_, _, stay, by decide +kernel, overtaken_at_most rfl (reachable_follow rfl _) stay⟩

/-- Two readers are made and not yet brought to the queues, and a writer waits that may be overtaken once. -/
def readersMade : System :=
  (fresh { bypassLimit := some 1 }).follow
    (Move.through (.enqueue { key := ⟨1, 0⟩, mode := .protectedRead, owner := ⟨"a"⟩ }) 0 ++
      [.start (.create { key := ⟨1, 0⟩, mode := .protectedRead, owner := ⟨"b"⟩ }),
        .start (.create { key := ⟨1, 0⟩, mode := .protectedRead, owner := ⟨"c"⟩ })] ++
      Move.through (.enqueue { key := ⟨1, 0⟩, mode := .exclusive, owner := ⟨"d"⟩ }) 3)

/-- Arrival is when a lock is made: both readers are granted past the writer although they come to the
queues after it. And a writer whose cancel has begun keeps its place for a while, but keeps nobody
back. -/
theorem overtaken_twice :
    (∃ t, Reachable { bypassLimit := some 1 } readersMade ∧ Reaches readersMade t ∧
      (readersMade.space.lock 3).state = .waiting ∧ (t.space.lock 3).state = .waiting ∧
      ∀ k ∈ [1, 2], (readersMade.space.lock k).state = .new ∧
        (t.space.lock k).grantedMode = some .protectedRead ∧
        conflicts .protectedRead (t.space.lock k).claim.policy (t.space.lock 3).requestedMode
          (t.space.lock 3).claim.policy = true) ∧
    ∃ t, Reachable { bypassLimit := some 1 } writerWaiting ∧ Reaches writerWaiting t ∧
      writerWaiting.space.locks.size = 2 ∧ (writerWaiting.space.lock 1).state = .waiting ∧
      (∃ e ∈ (t.space.resource 0).queues.waiting, e.claim.id = 1) ∧
      ∀ k ∈ [2, 3], (t.space.lock k).grantedMode = some .protectedRead ∧
        conflicts .protectedRead (t.space.lock k).claim.policy (t.space.lock 1).requestedMode
          (t.space.lock 1).claim.policy = true := by
  constructor
  · have run := readersMade.reaches_follow
      (Move.through (.enqueueLock ⟨1, 1⟩) 4 ++ Move.through (.enqueueLock ⟨2, 1⟩) 5)
    exact ⟨_, reachable_follow rfl _, run, by decide +kernel, by decide +kernel, by decide +kernel⟩
  · have run := writerWaiting.reaches_follow
      (Move.through (.enqueue { key := ⟨1, 0⟩, mode := .protectedRead, owner := ⟨"c"⟩ }) 2 ++
        [.start (.enqueue { key := ⟨1, 0⟩, mode := .protectedRead, owner := ⟨"d"⟩ }),
          .start (.cancel ⟨1, 1⟩), .carryOut 4, .take 3, .take 3, .carryOut 3])
    exact ⟨_, reachable_follow rfl _, run, by decide +kernel, by decide +kernel, by decide +kernel,
      by decide +kernel⟩

end System
end LockManager
