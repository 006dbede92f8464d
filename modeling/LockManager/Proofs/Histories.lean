import LockManager.Proofs.HandOver
import LockManager.Proofs.Namespace.Advances

set_option autoImplicit false

/-!
What the locks of a namespace go through in the course of a run. The course of each is a life cycle from
`NEW` on, its record recalls the end of it at any time, and no attempt to take it further is refused on
the way, whatever else is in progress.
-/

namespace LockManager

open Stations (Recounted)

/-- An operation that begins takes no lock anywhere; one that it makes is new. -/
theorem Opening.recounted {ns ns' : Namespace} {todo : List Stage} {log : List Advance}
    (opening : Opening ns todo ns') (pos : 0 < ns.config.historyDepth)
    (recounted : Recounted ns.config.historyDepth log ns.stations) :
    Recounted ns.config.historyDepth log ns'.stations := by
  cases opening with
  | still plain => exact recounted
  | @register req _ _ _ _ _ =>
    refine recounted.extend pos (ns.size_addLock req) (fun l below => ?_) ?_
    · exact congrArg Lock.station (ns.lock_addLock_of_lt below req)
    · exact congrArg Lock.station ((ns.lock_addLock req _).trans (if_pos rfl))
  | @rebind _ k _ _ => exact (ns.alike_findOrCreate k).stations ▸ recounted
  | @glimpse _ r _ _ => exact (ns.alike_addRef r).stations ▸ recounted
  | evict owner => exact (ns.alike_silence _).stations ▸ recounted
  | shutdown running => exact ns.alike_beginShutdown.stations ▸ recounted

namespace System

variable {config : Config} {s t : System} {log new : List Advance}

/-- The attempts made when task `i` carries out its next stage. -/
def advances (s : System) (i : TaskId) : List Advance :=
  match (s.task i).todo, s.prepared? i with
  | stage :: _, some r => stage.advances s.space r
  | _, _ => []

/-- A step, with the attempts made in it. Only stages make any. -/
inductive Attempts (s : System) : List Advance → System → Prop where
  | start (op : Operation) : Attempts s [] (s.start op)
  | hold {h : Handle} {l : LockId} (found : s.space.lookup h = .ok l) :
      Attempts s [] (s.startHold l s.role)
  | take {t : System} (i : TaskId) (taken : s.take? i = some t) : Attempts s [] t
  | carryOut {t : System} (i : TaskId) (done : s.carryOut? i = some t) :
      Attempts s (s.advances i) t
  | takeUp {ns : Namespace} (taken : s.space.takeUp? = some ns) :
      Attempts s [] { s with space := ns }
  | finish {d : Delivery} (busy : d ∈ s.space.dispatcher.deliveries) :
      Attempts s [] { s with space := s.space.finish d }
  | checkTimeouts : Attempts s [] { s with space := s.space.checkTimeouts.2 }
  | pass (duration : Nat) :
      Attempts s [] { s with space := { s.space with clock := s.space.clock + duration } }

theorem step_iff_attempts : Step s t ↔ ∃ new, Attempts s new t := by
  constructor
  · intro step
    cases step with
    | start op => exact ⟨_, .start op⟩
    | hold found => exact ⟨_, .hold found⟩
    | take i taken => exact ⟨_, .take i taken⟩
    | carryOut i done => exact ⟨_, .carryOut i done⟩
    | takeUp taken => exact ⟨_, .takeUp taken⟩
    | finish busy => exact ⟨_, .finish busy⟩
    | checkTimeouts => exact ⟨_, .checkTimeouts⟩
    | pass duration => exact ⟨_, .pass duration⟩
  · rintro ⟨new, attempts⟩
    cases attempts with
    | start op => exact .start s op
    | hold found => exact .hold found
    | take i taken => exact .take i taken
    | carryOut i done => exact .carryOut i done
    | takeUp taken => exact .takeUp taken
    | finish busy => exact .finish busy
    | checkTimeouts => exact .checkTimeouts s
    | pass duration => exact .pass s duration

/-- A run, with all attempts made from the creation of the namespace on. -/
inductive Told (config : Config) : List Advance → System → Prop where
  | create {ns : Namespace} (created : Namespace.create config = .ok ns) :
      Told config [] { space := ns }
  | step {log new : List Advance} {s t : System} (before : Told config log s)
      (attempts : Attempts s new t) : Told config (log ++ new) t

theorem Told.reachable (told : Told config log s) : Reachable config s := by
  induction told with
  | create created => exact ⟨_, created, .refl⟩
  | step _ attempts ih => exact ih.reaches (.single (step_iff_attempts.mpr ⟨_, attempts⟩))

/-- Every run can be told. -/
theorem Reachable.told (reachable : Reachable config s) : ∃ log, Told config log s := by
  induction reachable using Reachable.induction with
  | create created => exact ⟨[], .create created⟩
  | step before last ih =>
    obtain ⟨log, told⟩ := ih
    obtain ⟨new, attempts⟩ := step_iff_attempts.mp last
    exact ⟨log ++ new, told.step attempts⟩

theorem Reachable.historyDepth_pos (reachable : Reachable config s) : 0 < config.historyDepth := by
  obtain ⟨ns, created, -⟩ := reachable
  obtain ⟨usable, -⟩ := Namespace.create_eq_ok.mp created
  apply Nat.pos_of_ne_zero
  intro none
  unfold Config.fault? at usable
  split_ifs at usable

/-- What is attempted in a step tells what becomes of the locks in it. -/
theorem Sound.recounted (sound : s.Sound) (pos : 0 < s.space.config.historyDepth)
    (attempts : Attempts s new t)
    (recounted : Recounted s.space.config.historyDepth log s.space.stations) :
    Recounted s.space.config.historyDepth (log ++ new) t.space.stations := by
  have still {ns : Namespace} (same : Namespace.Alike s.space ns) :
      Recounted s.space.config.historyDepth (log ++ []) ns.stations := by
    rw [List.append_nil, same.stations]
    exact recounted
  cases attempts with
  | start op =>
    rw [List.append_nil]
    exact (Task.opening_start s.space op).recounted pos recounted
  | hold found => exact still (.refl s.space)
  | take i taken =>
    obtain ⟨p, -, -, rfl⟩ := take?_eq taken
    exact still (.refl s.space)
  | carryOut i done =>
    obtain ⟨stage, rest, r, todo, prepared, space, -⟩ := Sound.carryOut_cases done
    have told : s.advances i = stage.advances s.space r := by
      simp only [advances, todo, prepared]
    rw [told, space]
    exact recounted.leads pos ((sound.ready todo prepared).leads sound.space)
  | takeUp taken => exact still (Namespace.alike_takeUp taken)
  | finish busy => exact still (Namespace.alike_finish _ _)
  | checkTimeouts => exact still (Namespace.alike_checkTimeouts _)
  | pass duration => exact still (Namespace.alike_pass _ duration)

theorem Told.recounted (told : Told config log s) :
    Recounted config.historyDepth log s.space.stations := by
  have pos := told.reachable.historyDepth_pos
  induction told with
  | create created =>
    obtain ⟨-, rfl⟩ := Namespace.create_eq_ok.mp created
    exact .start _ rfl
  | step before attempts ih =>
    have same := before.reachable.config_eq
    rw [← same] at pos ih ⊢
    exact before.reachable.sound.recounted pos attempts ih

/-- At any time the course of a lock is a life cycle, and what its record recalls is the end of it. The same
goes for the record that an attempt finds and for the one that it leaves, and no attempt is refused unless
it was to let a lock in. -/
theorem history_recalls_course (reachable : Reachable config s) :
    (∃ log, Told config log s) ∧ ∀ log, Told config log s →
      (∀ l < s.space.locks.size, Lawful (course log l) ∧
        Remembers config.historyDepth (course log l) (s.space.lock l).station) ∧
      ∀ early t late, log = early ++ t :: late →
        Remembers config.historyDepth (course early t.lock) t.before.station ∧
        Remembers config.historyDepth (course (early ++ [t]) t.lock) t.after.station ∧
        (t.next ≠ .enqueued → t.Taken) := by
  refine ⟨reachable.told, fun log told => ⟨fun l known => ?_, fun early t late same => ?_⟩⟩
  · exact ⟨(told.recounted.legal l known).lawful, told.recounted.remembers l known⟩
  · have found := told.recounted.before early t late same
    refine ⟨found, found.advance reachable.historyDepth_pos, told.recounted.taken t ?_⟩
    rw [same]
    exact List.mem_append_right _ List.mem_cons_self

/-! ### Telling a run -/

/-- The attempts made in a move. -/
def attempted (s : System) : Move → List Advance
  | .carryOut i => s.advances i
  | .start _ | .take _ => []

/-- The attempts made in one move after another. -/
def recount (s : System) : List Move → List Advance
  | [] => []
  | m :: moves => s.attempted m ++ (s.move m).recount moves

theorem Told.move (told : Told config log s) (m : Move) :
    Told config (log ++ s.attempted m) (s.move m) := by
  cases m with
  | start op => exact told.step (.start op)
  | take i =>
    rw [System.move, attempted]
    cases taken : s.take? i with
    | none => exact (List.append_nil log).symm ▸ told
    | some t => exact told.step (.take i taken)
  | carryOut i =>
    rw [System.move, attempted]
    cases done : s.carryOut? i with
    | none =>
      have nothing : s.advances i = [] := by
        unfold carryOut? at done
        unfold advances
        split <;> simp_all
      rw [nothing, List.append_nil]
      exact told
    | some t => exact told.step (.carryOut i done)

theorem Told.follow (told : Told config log s) (moves : List Move) :
    Told config (log ++ s.recount moves) (s.follow moves) := by
  induction moves generalizing log s with
  | nil => exact (List.append_nil log).symm ▸ told
  | cons m moves ih =>
    rw [recount, ← List.append_assoc]
    exact ih (told.move m)

/-- A lock waits until the one in its way is canceled, is to be let in once more, and changes its mode. -/
def comesLater : List Move :=
  Move.through (.enqueue { key := ⟨1, 0⟩, mode := .exclusive, owner := ⟨"a"⟩ }) 0 ++
    Move.through (.enqueue { key := ⟨1, 0⟩, mode := .exclusive, owner := ⟨"b"⟩ }) 1 ++
    [.start (.cancel ⟨0, 1⟩), .carryOut 2, .take 2, .take 2, .carryOut 2] ++
    Move.through (.enqueueLock ⟨1, 1⟩) 3 ++ Move.through (.convert ⟨1, 1⟩ .protectedRead) 4

theorem history_recalls_course_later :
    ∃ log s, Told { historyDepth := 3 } log s ∧
      course log 0 = [.new, .enqueued, .granted, .canceling, .canceled] ∧
      course log 1 = [.new, .enqueued, .waiting, .granted, .converting, .granted] ∧
      (log.filter fun t => ¬t.Taken).map (fun t => (t.lock, t.next)) = [(1, .enqueued)] ∧
      (s.space.lock 1).history.states = [.granted, .converting, .granted] ∧
      Lawful (course log 1) ∧ Remembers 3 (course log 1) (s.space.lock 1).station := by
  have begun : Told { historyDepth := 3 } [] (fresh { historyDepth := 3 }) :=
    .create (Namespace.create_eq_ok.mpr ⟨rfl, rfl⟩)
  have told := begun.follow comesLater
  rw [List.nil_append] at told
  have known : 1 < ((fresh { historyDepth := 3 }).follow comesLater).space.locks.size := by
    decide +kernel
  obtain ⟨-, recalled⟩ := history_recalls_course told.reachable
  obtain ⟨lawful, remembers⟩ := (recalled _ told).1 1 known
  exact ⟨_, _, told, by decide +kernel, by decide +kernel, by decide +kernel, by decide +kernel,
    lawful, remembers⟩

end System
end LockManager
