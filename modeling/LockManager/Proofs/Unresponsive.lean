import LockManager.Proofs.Namespace.Overdue
import LockManager.Proofs.Namespace.Summons
import LockManager.Proofs.Redelivery
import LockManager.Proofs.Shutdown

set_option autoImplicit false

/-!
Owners that do not give way. In the course of a run a diary is kept of each lock, and whatever happens it
is in order: the lock's record recalls all of it that matters.
-/

namespace LockManager

open Namespace (Hushes)

namespace System

/-- Anything but a look at who has not given way in time. -/
inductive Goes : System → System → Prop where
  | start (s : System) (op : Operation) : Goes s (s.start op)
  | hold {s : System} {h : Handle} {l : LockId} (found : s.space.lookup h = .ok l) :
      Goes s (s.startHold l s.role)
  | take {s t : System} (i : TaskId) (taken : s.take? i = some t) : Goes s t
  | carryOut {s t : System} (i : TaskId) (done : s.carryOut? i = some t) : Goes s t
  | takeUp {s : System} {ns : Namespace} (taken : s.space.takeUp? = some ns) :
      Goes s { s with space := ns }
  | finish {s : System} {d : Delivery} (busy : d ∈ s.space.dispatcher.deliveries) :
      Goes s { s with space := s.space.finish d }
  | pass (s : System) (duration : Nat) :
      Goes s { s with space := { s.space with clock := s.space.clock + duration } }

variable {config : Config} {s t : System} {l : LockId} {deeds : List Deed}

theorem step_iff_goes :
    Step s t ↔ Goes s t ∨ t = { s with space := s.space.checkTimeouts.2 } := by
  constructor
  · intro step
    cases step with
    | start op => exact .inl (.start s op)
    | hold found => exact .inl (.hold found)
    | take i taken => exact .inl (.take i taken)
    | carryOut i done => exact .inl (.carryOut i done)
    | takeUp taken => exact .inl (.takeUp taken)
    | finish busy => exact .inl (.finish busy)
    | checkTimeouts => exact .inr rfl
    | pass duration => exact .inl (.pass s duration)
  · rintro (goes | rfl)
    · cases goes with
      | start op => exact .start s op
      | hold found => exact .hold found
      | take i taken => exact .take i taken
      | carryOut i done => exact .carryOut i done
      | takeUp taken => exact .takeUp taken
      | finish busy => exact .finish busy
      | pass duration => exact .pass s duration
    · exact .checkTimeouts s

/-- What is noted of lock `l` in the course of a run, from the creation of the namespace on. -/
inductive Diary (config : Config) (l : LockId) : List Deed → System → Prop where
  | create {ns : Namespace} (created : Namespace.create config = .ok ns) :
      Diary config l [] { space := ns }
  | go {deeds : List Deed} {s t : System} (before : Diary config l deeds s) (goes : Goes s t) :
      Diary config l (deeds ++ (s.space.lock l).deeds s.space.clock (t.space.lock l)) t
  | check {deeds : List Deed} {s : System} (before : Diary config l deeds s) :
      Diary config l (deeds ++ .checked s.space.clock ::
        (s.space.reportsOf l).map (.reported s.space.clock))
        { s with space := s.space.checkTimeouts.2 }

theorem Diary.reachable (diary : Diary config l deeds s) : Reachable config s := by
  induction diary with
  | create created => exact ⟨_, created, .refl⟩
  | go _ goes ih => exact ih.reaches (.single (step_iff_goes.mpr (.inl goes)))
  | check _ ih => exact ih.reaches (.single (.checkTimeouts _))

/-- Of every run a diary can be kept. -/
theorem Reachable.diary (reachable : Reachable config s) (l : LockId) :
    ∃ deeds, Diary config l deeds s := by
  induction reachable using Reachable.induction with
  | create created => exact ⟨[], .create created⟩
  | step before last ih =>
    obtain ⟨deeds, diary⟩ := ih
    rcases step_iff_goes.mp last with goes | rfl
    · exact ⟨_, diary.go goes⟩
    · exact ⟨_, diary.check⟩

/-- Whatever goes on is noted, unless it is the end: with the dispatcher closed everyone is muted. -/
theorem Sound.noted (sound : s.Sound) (goes : Goes s t) (hush : s.space.dispatcher.closed = true →
    ∀ l < s.space.locks.size, (s.space.lock l).Muted) (timeout : Nat) (l : LockId) :
    (s.space.lock l).Noted timeout s.space.clock (t.space.lock l) := by
  have still {ns : Namespace} (hushes : Hushes s.space ns) :
      (s.space.lock l).Noted timeout s.space.clock (ns.lock l) := (hushes.lock l).noted
  cases goes with
  | start op => exact still (Task.opening_start s.space op).hushes
  | hold found => exact still (.refl s.space)
  | take i taken =>
    obtain ⟨p, -, -, rfl⟩ := take?_eq taken
    exact still (.refl s.space)
  | carryOut i done =>
    obtain ⟨stage, rest, q, todo, prepared, space, -⟩ := Sound.carryOut_cases done
    rw [space]
    by_cases known : l < s.space.locks.size
    · exact (sound.ready todo prepared).noted sound.space fun closed => hush closed l known
    · have beyond := (sound.effect todo prepared).size ▸ known
      rw [Namespace.lock_beyond known, Namespace.lock_beyond beyond]
      exact (Lock.Hushed.refl _).noted
  | takeUp taken => exact still (Namespace.hushes_takeUp taken)
  | finish busy => exact still (Namespace.hushes_finish _ _)
  | pass duration => exact (Lock.Hushed.refl _).noted

/-- Time does not go back. -/
theorem Goes.clock_le (goes : Goes s t) : s.space.clock ≤ t.space.clock := by
  have still {ns : Namespace} (same : ns.clock = s.space.clock) : s.space.clock ≤ ns.clock :=
    Nat.le_of_eq same.symm
  cases goes with
  | start op => exact still (Task.opening_start s.space op).hushes.clock
  | hold found => exact Nat.le_refl _
  | take i taken =>
    obtain ⟨p, -, -, rfl⟩ := take?_eq taken
    exact Nat.le_refl _
  | carryOut i done =>
    obtain ⟨stage, rest, q, -, -, space, -⟩ := Sound.carryOut_cases done
    rw [space]
    exact still Stage.clock
  | takeUp taken => exact still (Namespace.hushes_takeUp taken).clock
  | finish busy => exact still (Namespace.hushes_finish _ _).clock
  | pass duration => exact Nat.le_add_right ..

theorem Reachable.hush (reachable : Reachable config s) (room : s.space.Room)
    (closed : s.space.dispatcher.closed = true) (l : LockId) (known : l < s.space.locks.size) :
    (s.space.lock l).Muted :=
  (reachable.stopped_of_stopping room (reachable.parting.closed closed)).muted l known

/-- A request to give way that is queued comes behind all that is queued already, and so it is noted. -/
theorem Reachable.complete (reachable : Reachable config s) (room : s.space.Room) (goes : Goes s t)
    (l : LockId) : (s.space.lock l).pending <+: (t.space.lock l).pending ∨
      requests (t.space.lock l).pending <:+ requests (s.space.lock l).pending :=
  (reachable.sound.noted goes (reachable.hush room) 0 l).complete

/-- The diary of a lock is in order all along, and the lock's record recalls what matters of it. -/
theorem Diary.kept (diary : Diary config l deeds s) (room : s.space.Room) :
    Kept config.blockingTimeout s.space.clock deeds (s.space.lock l).summons
      (s.space.lock l).state.leaving := by
  induction diary with
  | create created =>
    obtain ⟨-, rfl⟩ := Namespace.create_eq_ok.mp created
    rw [Namespace.lock_beyond (Nat.not_lt_zero l)]
    exact ⟨.nil _, .nil _ _⟩
  | @go deeds s t before goes ih =>
    have reachable := before.reachable
    have step := step_iff_goes.mpr (.inl goes)
    have room' : s.space.Room := (reachable.sound.turn step).room room
    have noted := reachable.sound.noted goes (reachable.hush room') config.blockingTimeout l
    have kept := noted.kept deeds (ih room')
    exact ⟨kept.orderly, kept.recalls.pass goes.clock_le⟩
  | @check deeds s before ih =>
    have reachable := before.reachable
    have room' : s.space.Room := (reachable.sound.turn (.checkTimeouts s)).room room
    obtain ⟨reports, after⟩ := reachable.sound.space.checkTimeouts reachable.names room' l
    have clock : s.space.checkTimeouts.2.clock = s.space.clock :=
      s.space.checkTimeouts_induction (P := (·.clock = s.space.clock)) rfl fun _ _ same => same
    rw [reports, after, clock, reachable.config_eq]
    exact (ih room').check fun waited => Lock.overdue?_eq_some

/-- Between two grants a lock is asked to give way once at most, and its owner is reported once at most:
never unless it has been asked long enough ago and has been neither granted anything nor canceled since,
and then as soon as someone looks. Of every run such a diary can be kept. -/
theorem asked_and_reported_once (reachable : Reachable config s) (room : s.space.Room) (l : LockId) :
    (∃ deeds, Diary config l deeds s) ∧
      ∀ deeds, Diary config l deeds s → Orderly config.blockingTimeout deeds :=
  ⟨reachable.diary l, fun _ diary => (diary.kept room).orderly⟩

/-! ### Keeping a diary -/

/-- What is noted of lock `l` when an event leads from `s` to `t`. -/
def notes (l : LockId) (s t : System) : Event → List Deed
  | .checkTimeouts =>
    .checked s.space.clock :: (s.space.reportsOf l).map (.reported s.space.clock)
  | _ => (s.space.lock l).deeds s.space.clock (t.space.lock l)

/-- One event after another is noted. -/
def chronicle? (l : LockId) (s : System) (events : List Event) : Option (List Deed × System) :=
  events.foldlM (fun p e => (p.2.on? e).map fun t => (p.1 ++ notes l p.2 t e, t)) ([], s)

theorem goes_of_on {e : Event} (done : s.on? e = some t) (other : e ≠ .checkTimeouts) :
    Goes s t := by
  cases e with
  | checkTimeouts => exact absurd rfl other
  | request peer req => exact Option.some.inj done ▸ .start s _
  | take i => exact .take i done
  | carryOut i => exact .carryOut i done
  | takeUp =>
    obtain ⟨ns, taken, rfl⟩ := Option.map_eq_some_iff.mp done
    exact .takeUp taken
  | finish d =>
    simp only [on?] at done
    split at done
    · next busy => exact Option.some.inj done ▸ .finish busy
    · cases done
  | pass duration => exact Option.some.inj done ▸ .pass s duration

theorem Diary.note (diary : Diary config l deeds s) {e : Event} (done : s.on? e = some t) :
    Diary config l (deeds ++ notes l s t e) t := by
  cases e with
  | checkTimeouts => exact Option.some.inj done ▸ diary.check
  | _ => exact diary.go (goes_of_on done nofun)

theorem diary_of_chronicle (usable : config.fault? = none) {events : List Event}
    (done : chronicle? l (fresh config) events = some (deeds, s)) : Diary config l deeds s := by
  have begun : Diary config l [] (fresh config) :=
    .create (Namespace.create_eq_ok.mpr ⟨usable, rfl⟩)
  unfold chronicle? at done
  generalize [] = before at begun done
  generalize fresh config = t at begun done
  induction events generalizing before t with
  | nil =>
    cases done
    exact begun
  | cons e events ih =>
    obtain ⟨p, first, rest⟩ := Option.bind_eq_some_iff.mp done
    obtain ⟨u, next, rfl⟩ := Option.map_eq_some_iff.mp first
    exact ih _ _ (begun.note next) rest

/-- An owner keeps another one waiting for too long. Then it asks for less, but it is in the way still, and
is asked to give way again; this time it goes before it is reported. -/
def inTheWay : List Event :=
  .request ⟨"a"⟩ (.enqueue ⟨1, 0⟩ .exclusive .plain none) :: through 0 ++
    .request ⟨"b"⟩ (.enqueue ⟨1, 0⟩ .exclusive .plain none) :: through 1 ++
    [.pass 30000, .checkTimeouts, .checkTimeouts] ++
    .request ⟨"a"⟩ (.convert ⟨0, 1⟩ .protectedRead) :: through 2 ++
    [.pass 20000, .checkTimeouts, .request ⟨"a"⟩ (.cancel ⟨0, 1⟩), .carryOut 3, .pass 20000,
      .checkTimeouts]

/-- It is reported once for the first of its grants and not for the second. -/
theorem asked_and_reported_once_again :
    ∃ deeds s, chronicle? 0 (fresh {}) inTheWay = some (deeds, s) ∧ s.space.Room ∧
      deeds = [.granted, .asked 0, .checked 30000, .reported 30000 30000, .checked 30000, .granted,
        .asked 30000, .checked 50000, .canceled, .checked 70000] ∧ Orderly 30000 deeds := by
  have possible : (chronicle? 0 (fresh {}) inTheWay).isSome = true := by decide +kernel
  have ends : (chronicle? 0 (fresh {}) inTheWay).all (fun p => decide (p.2.space.Room ∧
      p.1 = [.granted, .asked 0, .checked 30000, .reported 30000 30000, .checked 30000, .granted,
        .asked 30000, .checked 50000, .canceled, .checked 70000])) = true := by
    decide +kernel
  obtain ⟨⟨deeds, s⟩, told⟩ := Option.isSome_iff_exists.mp possible
  rw [told, Option.all_some, decide_eq_true_eq] at ends
  have diary : Diary {} 0 deeds s := diary_of_chronicle rfl told
  exact ⟨deeds, s, told, ends.1, ends.2,
    (asked_and_reported_once diary.reachable ends.1 0).2 deeds diary⟩

end System
end LockManager
