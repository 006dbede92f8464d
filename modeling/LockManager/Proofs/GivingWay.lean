import LockManager.Proofs.Alone
import LockManager.Proofs.Namespace.Resting

set_option autoImplicit false

/-!
Giving way. Whoever holds a mode may have any other one at once that goes with all the modes the first
goes with: nothing that is granted beside it stands against that, and nobody who waits is asked.
-/

namespace LockManager

theorem Lock.Settled.entries_of_granted {x : Lock} {own : Queues} (settled : x.Settled own)
    (granted : x.state = .granted) : own = { granted := [⟨x.claim, x.requestedMode⟩] } := by
  cases settled with
  | granted _ _ entries => exact entries
  | new state | waiting state | converting state => rw [state] at granted; cases granted

namespace Namespace

variable {ns : Namespace} {l : LockId} {held m : Mode}

namespace Calm

theorem standing_of_granted (calm : ns.Calm) (alive : ns.Alive l)
    (granted : (ns.lock l).state = .granted) (holds : (ns.lock l).grantedMode = some held) :
    (ns.lock l).standing = ⟨.granted, held, some held⟩ := by
  have wanted : (ns.lock l).requestedMode = held :=
    Option.some.inj (((calm.settled alive).holds granted).symm.trans holds)
  simp only [Lock.standing, granted, holds, wanted]

/-- Whoever is granted something beside a lock goes with all that the lock's mode covers. -/
theorem not_opposed_of_covers (calm : ns.Calm) (alive : ns.Alive l)
    (granted : (ns.lock l).state = .granted) (holds : (ns.lock l).grantedMode = some held)
    (weaker : held.Covers m) :
    (ns.asking l m (ns.lock l).resource).opposed (ns.lock l).claim m = false := by
  have coherent := calm.sound.ledger.coherent
  have wanted := (calm.settled alive).holds granted
  obtain rfl : held = (ns.lock l).requestedMode := Option.some.inj (holds.symm.trans wanted)
  have mine : (⟨(ns.lock l).claim, (ns.lock l).requestedMode⟩ : Entry) ∈
      (ns.resource (ns.lock l).resource).queues.granted := by
    have entries : ((ns.resource (ns.lock l).resource).queues.of l).granted =
        [⟨(ns.lock l).claim, (ns.lock l).requestedMode⟩] := by
      rw [(calm.settled alive).entries_of_granted granted]
    exact List.mem_of_mem_filter (entries ▸ List.mem_singleton_self _)
  refine List.any_eq_false.mpr fun e inside against => ?_
  have apart := coherent.apart _ e inside _ mine
  rw [Entry.opposes_of_covers weaker against] at apart
  cases apart

/-- A mode that is covered by the one held is had at once. -/
theorem changeMode_of_covers (calm : ns.Calm) (alive : ns.Alive l)
    (granted : (ns.lock l).state = .granted) (holds : (ns.lock l).grantedMode = some held)
    (weaker : held.Covers m) :
    ∃ ns', ns.changeMode l m (ns.lock l).resource = .ok (.granted, ns') ∧
      (ns'.lock l).standing = ⟨.granted, m, some m⟩ := by
  have named := calm.sound.ledger.coherent.named l alive.1
  have standing := calm.standing_of_granted alive granted holds
  by_cases same : held = m
  · obtain rfl := same
    exact ⟨ns, Resting.changeMode_same standing _, standing⟩
  · obtain ⟨a, step, now⟩ := Resting.changeMode_free alive.1 named standing same
      (calm.not_opposed_of_covers alive granted holds weaker)
    exact ⟨_, step, Resting.standing_of_reprocess now _⟩

end Calm

theorem convert_of_changeMode {h : Handle} (running : ns.stopping = false)
    (found : ns.lookup h = .ok l) {status : ConvertStatus} {ns' : Namespace}
    (done : ns.changeMode l m (ns.lock l).resource = .ok (status, ns')) :
    ns.convert h m = (.ok status, ns') := by
  unfold convert ensureRunning
  simp only [running, found, done, Bool.false_eq_true, if_false]

end Namespace

namespace System

variable {config : Config} {s : System} {l : LockId} {held m : Mode}

theorem start_convert {ns : Namespace} {h : Handle} (running : ns.stopping = false)
    (found : ns.lookup h = .ok l) :
    Task.start ns (.convert h m) = ({ todo := [.changeMode l m] }, ns) := by
  unfold Task.start Namespace.ensureRunning
  simp only [running, found, Bool.false_eq_true, if_false]

/-- With no other operation in progress, a lock that is granted may have any mode at once that goes with
all that its own goes with, whoever waits or converts on the resource. -/
theorem gives_way_at_once (reachable : Reachable config s) (quiet : s.quiet = true) {h : Handle}
    (found : s.space.lookup h = .ok l) (granted : (s.space.lock l).state = .granted)
    (holds : (s.space.lock l).grantedMode = some held)
    (weaker : ∀ x : Mode, held.compatible x = true → m.compatible x = true) :
    (s.space.perform (.convert h m)).1 = .ok (.converted .granted) ∧
      (∃ t, s.Carries (.convert h m) t) ∧
      ∀ t, s.Carries (.convert h m) t →
        (t.task s.tasks.size).outcome = some (.ok (.converted .granted)) ∧
          (t.space.lock l).state = .granted ∧ (t.space.lock l).grantedMode = some m ∧
          (t.queues (t.space.lock l).resource).of l = { granted := [⟨(t.space.lock l).claim, m⟩] } := by
  have calm := reachable.calm quiet
  obtain ⟨alive, running⟩ := calm.named found
  obtain ⟨ns', done, standing⟩ := calm.changeMode_of_covers alive granted holds weaker
  have whole : s.space.convert h m = (.ok .granted, ns') :=
    Namespace.convert_of_changeMode running found done
  have ordinary : (Operation.convert h m).Ordinary := trivial
  refine ⟨congrArg (fun result => result.1.map Answer.converted) whole,
    exists_carries reachable quiet ordinary, fun t carries => ?_⟩
  obtain rfl : t.space = ns' :=
    (carries.space reachable quiet ordinary).trans (congrArg Prod.snd whole)
  have answered : (t.task s.tasks.size).outcome = some (.ok (.converted .granted)) := by
    refine carries.outcome_of_comesTo reachable.sound ?_
    rw [start_convert running found]
    exact Namespace.comesTo_changeMode done
  have state : (t.space.lock l).state = .granted := congrArg Standing.state standing
  have wanted : (t.space.lock l).requestedMode = m := congrArg Standing.wanted standing
  have after := (reachable.reaches carries.reaches).calm carries.1
  have lives : t.space.Alive l := by
    have known := Nat.lt_of_lt_of_le alive.1 (reachable.sound.grown carries.reaches)
    refine after.sound.alive known ?_
    rw [state]
    exact LockState.noConfusion
  have entries := (after.settled lives).entries_of_granted state
  rw [wanted] at entries
  exact ⟨answered, state, congrArg Standing.held standing, entries⟩

/-- A reader goes down to the weakest mode while another is converting to the strongest and a writer
waits; it is had at once, and the other conversion goes through. -/
theorem gives_way_at_once_conversion :
    let request (name : String) (mode : Mode) : Operation :=
      .enqueue { key := ⟨1, 0⟩, mode, owner := ⟨name⟩ }
    let s := (fresh {}).follow
      (Move.through (request "a" .protectedRead) 0 ++ Move.through (request "b" .protectedRead) 1 ++
        Move.through (.convert ⟨1, 1⟩ .exclusive) 2 ++ Move.through (request "c" .exclusive) 3)
    (s.space.lock 1).state = .converting ∧ (s.space.lock 2).state = .waiting ∧
      (s.space.perform (.convert ⟨0, 1⟩ .null)).1 = .ok (.converted .granted) ∧
      ∃ t, s.Carries (.convert ⟨0, 1⟩ .null) t ∧ (t.space.lock 0).grantedMode = some .null := by
  intro request s
  have reachable : Reachable {} s := reachable_follow rfl _
  have found : s.space.lookup ⟨0, 1⟩ = .ok 0 := by decide +kernel
  have holds : (s.space.lock 0).grantedMode = some .protectedRead := by decide +kernel
  have weaker : ∀ x : Mode, Mode.protectedRead.compatible x = true → Mode.null.compatible x = true :=
    fun x _ => by cases x <;> rfl
  obtain ⟨answer, ⟨t, carries⟩, all⟩ :=
    gives_way_at_once reachable (by decide +kernel) found (by decide +kernel) holds weaker
  exact ⟨by decide +kernel, by decide +kernel, answer, t, carries, (all t carries).2.2.1⟩

end System
end LockManager
