import LockManager.Proofs.Replays
import LockManager.Proofs.System.Events
import LockManager.Proofs.System.Schedule

set_option autoImplicit false

/-!
What becomes of a run when one numbered request in it is delivered once more. Nothing, as long as a
lock that was made for its number lives; but the number is forgotten with the lock, and a copy that
arrives after that makes another one.
-/

namespace LockManager

/-- The request is malformed, or its number is that of a live lock. -/
def Namespace.Absorbs (ns : Namespace) (req : LockRequest) : Prop :=
  (req.policy.fault?.isSome = true ∨ req.owner.name.isEmpty = true) ∨
    ∃ l ∈ ns.live, (ns.lock l).claim.owner = req.owner ∧
      ∃ seq, req.clientSeq = some seq ∧ (ns.lock l).claim.clientSeq = some seq

namespace Namespace

variable {ns : Namespace} {req : LockRequest}

theorem register_of_nobody (nobody : req.owner.name.isEmpty = true) :
    ∃ e, ns.register req = .error e := by
  unfold register
  cases ns.ensureRunning with
  | error e => exact ⟨e, rfl⟩
  | ok _ =>
    cases req.policy.fault? with
    | some fault => exact ⟨_, rfl⟩
    | none =>
      simp only [nobody, bind, Except.bind, if_true]
      exact ⟨_, rfl⟩

/-- Nothing is begun for a request that is absorbed. -/
theorem start_of_absorbs (answers : ∀ l ∈ ns.live, ns.Answers l)
    (named : ∀ l ∈ ns.live, ns.handles.get? (ns.lock l).handle = some l)
    (absorbs : ns.Absorbs req) :
    ∃ outcome, Task.start ns (.enqueue req) = (.answered outcome, ns) := by
  unfold Task.start
  rcases ns.register_cases req with ⟨e, refused⟩ | ⟨l, -, copy⟩ | ⟨valid, fresh⟩
  · exact ⟨.error e, by simp only [refused]⟩
  · exact ⟨.ok (.enqueued (ns.reply l)), by simp only [copy]⟩
  · exfalso
    rcases absorbs with (fault | nobody) | ⟨l, live, owner, seq, asked, made⟩
    · simp [valid] at fault
    · obtain ⟨e, refused⟩ := ns.register_of_nobody nobody
      rw [refused] at fresh
      cases fresh
    · obtain ⟨-, -, -, -, new⟩ := (register_ok fresh).resolve_left (by simp)
      have answer := answers l live seq made
      rw [owner] at answer
      simp [replayOf?, asked, answer, named l live] at new

end Namespace

namespace System

variable {config : Config} {s t : System} {l : LockId} {e : Event} {events : List Event}

/-- No peer can ask for its requests, or anybody's, to be forgotten. -/
theorem forget_notMem_on (keeps : ∀ i owner, .forget owner ∉ (s.task i).todo)
    (done : s.on? e = some t) : ∀ i owner, .forget owner ∉ (t.task i).todo := by
  intro i owner inside
  by_cases old : i < s.tasks.size
  · rcases todo_step (step_of_on done) old with same | carried
    · exact keeps i owner (same ▸ inside)
    · exact keeps i owner (mem_todo_of_carryOut carried id inside)
  · obtain ⟨rfl, begun⟩ := start_of_forget (step_of_on done) old inside
    rcases size_of_on done with same | ⟨peer, req, rfl⟩
    · have more : (s.start (.evict owner)).tasks.size = s.tasks.size + 1 := Arena.size_alloc ..
      rw [← begun, same] at more
      exact absurd more (Nat.ne_of_lt (Nat.lt_succ_self _))
    · obtain rfl := Option.some.inj done
      rw [task_start] at inside
      have asked := Task.forget_mem_start inside
      cases req <;> cases asked

/-- What is known at every point of a run of requests. -/
structure Unforgetful (s : System) : Prop where
  keeps : ∀ i owner, .forget owner ∉ (s.task i).todo
  answers : ∀ l, s.space.Alive l → s.space.Answers l

namespace Unforgetful

theorem on (known : Unforgetful s) (sound : s.Sound) (room : s.space.Room)
    (done : s.on? e = some t) : Unforgetful t := by
  refine ⟨forget_notMem_on known.keeps done, fun l alive => ?_⟩
  have step := step_of_on done
  rcases sound.answers_step room step alive fun before =>
      known.answers l ((sound.lasts step before).alive alive) with still | ⟨i, rest, todo, -, -⟩
  · exact still
  · exact absurd (todo ▸ List.mem_cons_self) (known.keeps i _)

theorem run (known : Unforgetful s) (sound : s.Sound) (room : t.space.Room)
    (done : s.run? events = some t) : Unforgetful t := by
  induction events generalizing s with
  | nil => exact Option.some.inj done ▸ known
  | cons e events ih =>
    obtain ⟨u, first, rest⟩ := Option.bind_eq_some_iff.mp done
    have step := step_of_on first
    have room' := (sound.step step).room_of_reaches (reaches_run? rest) room
    exact ih (known.on sound ((sound.turn step).room room') first) (sound.step step) rest

theorem create {ns : Namespace} (created : Namespace.create config = .ok ns) :
    Unforgetful { space := ns } := by
  refine ⟨fun i owner inside => absurd (lt_size_of_todo inside) (Nat.not_lt_zero i),
    fun l alive => ?_⟩
  obtain ⟨-, rfl⟩ := Namespace.create_eq_ok.mp created
  exact absurd alive.1 (Nat.not_lt_zero l)

end Unforgetful

/-- A request that is delivered once more while a lock that was made for its number lives, or that is
malformed, leaves no trace: whatever happens before and after, the run ends with the same namespace
with the copy and without it (as long as slot numbers fit a handle, so that a handle names one lock).
The copy is a task like every request, so the tasks that begin after it go by the next name. -/
theorem copy_unnoticed {ns : Namespace} (created : Namespace.create config = .ok ns)
    (run : ({ space := ns } : System).run? events = some s) (room : s.space.Room) {peer : Owner}
    {key : Key} {mode : Mode} {policy : Policy} {clientSeq : Option UInt64}
    (absorbs : s.space.Absorbs { key, mode, policy, owner := peer, clientSeq }) (after : List Event) :
    (({ space := ns } : System).run? (events ++ .request peer (.enqueue key mode policy clientSeq) ::
        after.map (.renumber s.tasks.size))).map System.space =
      (({ space := ns } : System).run? (events ++ after)).map System.space := by
  have reachable : Reachable config s := ⟨ns, created, reaches_run? run⟩
  have sound := reachable.sound.space
  have known := (Unforgetful.create created).run (sound_create created) room run
  have named : ∀ l ∈ s.space.live, s.space.handles.get? (s.space.lock l).handle = some l := by
    intro l live
    have alive := (sound.mem_live_iff room).mp live
    exact ((sound.handles room).2 _ l).mpr ⟨alive.1, rfl, alive.2⟩
  obtain ⟨outcome, answered⟩ := Namespace.start_of_absorbs
    (fun l live => known.answers l ((sound.mem_live_iff room).mp live)) named absorbs
  have copy : s.start (.enqueue { key, mode, policy, owner := peer, clientSeq }) =
      { s with tasks := s.tasks.alloc (.answered outcome) } := by
    unfold start
    rw [answered]
  have beside : Beside s.tasks.size s { s with tasks := s.tasks.alloc (.answered outcome) } :=
    .of_alloc rfl
  have same := beside.run? after
  rw [← copy] at same
  simp only [run?, List.foldlM_append] at run same ⊢
  rw [run]
  exact same

/-- A peer asks for a lock that nobody else may have at the same time. -/
def askAlone (peer : Owner) : Event :=
  .request peer (.enqueue ⟨1, 0⟩ .exclusive .plain (some 7))

/-- What task `i` does when all it needs is the queues of one lock's resource. -/
def through (i : TaskId) : List Event := [.take i, .take i, .carryOut i]

/-- One peer has the lock and another waits for it. -/
def twoAsking : List Event := askAlone ⟨"a"⟩ :: through 0 ++ askAlone ⟨"b"⟩ :: through 1

/-- A copy of the first request comes then. -/
theorem copy_unnoticed_contended :
    ∃ s, (fresh {}).run? twoAsking = some s ∧ s.space.Room ∧
      s.space.Absorbs { key := ⟨1, 0⟩, mode := .exclusive, owner := ⟨"a"⟩, clientSeq := some 7 } ∧
      ∀ after, ((fresh {}).run? (twoAsking ++ askAlone ⟨"a"⟩ ::
          after.map (.renumber s.tasks.size))).map System.space =
        ((fresh {}).run? (twoAsking ++ after)).map System.space := by
  have created : Namespace.create {} = .ok { config := {} } := rfl
  have possible : ((fresh {}).run? twoAsking).isSome = true := by decide +kernel
  have ends : ((fresh {}).run? twoAsking).all (fun s => decide (s.space.Room ∧ 0 ∈ s.space.live ∧
      (s.space.lock 0).claim.owner = ⟨"a"⟩ ∧ (s.space.lock 0).claim.clientSeq = some 7)) = true := by
    decide +kernel
  obtain ⟨s, run⟩ := Option.isSome_iff_exists.mp possible
  rw [run, Option.all_some, decide_eq_true_eq] at ends
  obtain ⟨room, live, owner, made⟩ := ends
  have absorbs : s.space.Absorbs
      { key := ⟨1, 0⟩, mode := .exclusive, owner := ⟨"a"⟩, clientSeq := some 7 } :=
    .inr ⟨0, live, owner, 7, rfl, made⟩
  exact ⟨s, run, room, absorbs, copy_unnoticed created run room absorbs⟩

/-- A peer has had the lock and given it back. -/
def givenBack : List Event :=
  askAlone ⟨"a"⟩ :: through 0 ++ [.request ⟨"a"⟩ (.cancel ⟨0, 1⟩), .carryOut 1] ++ through 1 ++
    [.take 1, .carryOut 1]

/-- The number is forgotten with the lock: a copy of the request that comes after that makes a second
lock, which is granted. -/
theorem copy_after_cancel :
    ((fresh {}).run? givenBack).any (fun s => decide (s.space.live = [])) = true ∧
      ((fresh {}).run? (givenBack ++ askAlone ⟨"a"⟩ :: through 2)).any (fun s =>
        decide (s.space.live = [1] ∧ (s.space.lock 1).claim.clientSeq = some 7 ∧
          (s.space.lock 1).state = .granted)) = true := by
  decide +kernel

end System
end LockManager
