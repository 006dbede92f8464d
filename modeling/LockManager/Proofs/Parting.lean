import LockManager.Proofs.CancelPriority
import LockManager.Proofs.Handles

set_option autoImplicit false

/-!
Whom nothing is told any more. Locks are silenced only by whoever is going to cancel them, and a
shutdown silences and cancels all that handles name, since no more come after it has begun. So once no
operation is in progress, every lock that is left can be told something, and after a shutdown no handle
names any.
-/

namespace LockManager
namespace Namespace

/-- Nobody but `who` has been silenced, and the dispatcher is closed only if it was or that is what
happens here. -/
structure Silences (ns ns' : Namespace) (who : LockId → Prop) (shuts : Prop) : Prop where
  stopping : ns'.stopping = ns.stopping
  closed : ns'.dispatcher.closed = true → ns.dispatcher.closed = true ∨ shuts
  suppressed : ∀ k, (ns'.lock k).suppressed = true → (ns.lock k).suppressed = true ∨ who k

variable {ns ns' ns'' : Namespace} {who : LockId → Prop} {shuts : Prop} {l : LockId} {r : ResourceId}

namespace Silences

theorem mono {who' : LockId → Prop} {shuts' : Prop} (silences : Silences ns ns' who shuts)
    (more : ∀ k, who k → who' k) (close : shuts → shuts') : Silences ns ns' who' shuts' :=
  ⟨silences.stopping, fun closed => (silences.closed closed).imp_right close,
    fun k suppressed => (silences.suppressed k suppressed).imp_right (more k)⟩

theorem refl (ns : Namespace) : Silences ns ns who shuts := ⟨rfl, .inl, fun _ => .inl⟩

theorem congr (silences : Silences ns ns' who shuts) (stopping : ns''.stopping = ns'.stopping)
    (closed : ns''.dispatcher.closed = ns'.dispatcher.closed)
    (suppressed : ∀ k, (ns''.lock k).suppressed = (ns'.lock k).suppressed) :
    Silences ns ns'' who shuts :=
  ⟨stopping.trans silences.stopping, fun now => silences.closed (closed ▸ now),
    fun k now => silences.suppressed k (suppressed k ▸ now)⟩

/-- What has nothing to do with messages. -/
theorem of_mail (silences : Silences ns ns' who shuts) (stopping : ns''.stopping = ns'.stopping)
    (same : ns''.mail = ns'.mail) : Silences ns ns'' who shuts :=
  silences.congr stopping (congrArg (·.dispatcher.closed) same :)
    fun k => (congrArg (fun m => (m.outbox k).suppressed) same :)

/-- Nothing but one lock changes, and that is not silenced. -/
theorem modifyLock (ns : Namespace) (l : LockId) {f : Lock → Lock}
    (same : (f (ns.lock l)).suppressed = (ns.lock l).suppressed) :
    Silences ns (ns.modifyLock l f) who shuts := by
  refine (refl ns).congr rfl rfl fun k => ?_
  rw [lock_modifyLock]
  split
  · next here => exact here.1 ▸ same
  · rfl

/-- Deciding on a resource silences nobody. -/
theorem conclude {a : Arbiter} (posts : (ns.arbiter r).Posts a) :
    Silences ns (ns.conclude r a) who shuts := by
  have steady := ns.steady_conclude r a
  refine ⟨steady.stopping, fun closed => .inl (steady.closed ▸ closed), fun k suppressed => .inl ?_⟩
  obtain ⟨scheduled, pending, same, -⟩ := ns.lock_conclude r a k
  rw [same] at suppressed
  exact (posts.suppressed k).symm.trans suppressed

theorem silence (ns : Namespace) (ls : List LockId) :
    Silences ns (ns.silence ls) (· ∈ ls) shuts := by
  unfold Namespace.silence
  induction ls generalizing ns with
  | nil => exact .refl ns
  | cons l ls ih =>
    obtain ⟨stopping, closed, suppressed⟩ := ih (ns.modifyLock l Lock.suppress)
    refine ⟨stopping, closed, fun k now => ?_⟩
    rcases suppressed k now with before | later
    · rw [lock_modifyLock] at before
      split at before
      · next here => exact .inr (here.1 ▸ List.mem_cons_self)
      · exact .inl before
    · exact .inr (List.mem_cons_of_mem l later)

theorem leave (canceling : (ns.lock l).state = .canceling) (r : ResourceId) :
    Silences ns (ns.leave l r) who shuts := by
  obtain ⟨a, posts, same⟩ := posts_leave canceling r
  have concluded : Silences ns (ns.conclude r a) who shuts := .conclude posts
  exact concluded.of_mail ((served_leave ns l r).1.stopping.trans concluded.stopping.symm) same

theorem drain (ns : Namespace) (l : LockId) : Silences ns (ns.drain l) who shuts := by
  rcases ns.drain_cases l with ⟨n, rest, -, -, after⟩ | ⟨-, after⟩ <;> rw [after]
  · have handed : Silences ns (ns.modifyLock l ({ · with pending := rest })) who shuts :=
      .modifyLock ns l rfl
    exact handed.congr rfl rfl fun _ => rfl
  · have done : Silences ns (ns.modifyLock l ({ · with pending := [], scheduled := false })) who
        shuts := .modifyLock ns l rfl
    exact done.congr rfl rfl fun _ => rfl

theorem takeUp (taken : ns.takeUp? = some ns') : Silences ns ns' who shuts := by
  obtain ⟨-, l, rest, -, rfl⟩ := takeUp?_eq taken
  have drained : Silences _ _ who shuts := drain (ns.modifyDispatcher ({ · with queue := rest })) l
  exact ⟨drained.stopping, drained.closed, drained.suppressed⟩

theorem finish (ns : Namespace) (d : Delivery) : Silences ns (ns.finish d) who shuts := by
  have drained : Silences _ _ who shuts :=
    drain (ns.modifyDispatcher fun x => { x with deliveries := x.deliveries.erase d }) d.lock
  exact ⟨drained.stopping, drained.closed, drained.suppressed⟩

theorem closeDispatcher (ns : Namespace) : Silences ns ns.closeDispatcher who True := by
  have each (ls : List LockId) : Silences ns (ls.foldl abandon ns) who False := by
    induction ls generalizing ns with
    | nil => exact .refl ns
    | cons l ls ih =>
      have dropped : Silences ns (ns.modifyLock l ({ · with pending := [], scheduled := false }))
          who False := .modifyLock ns l rfl
      have first : Silences ns (ns.abandon l) who False := dropped.congr rfl rfl fun _ => rfl
      have rest := ih (ns.abandon l)
      exact ⟨rest.stopping.trans first.stopping,
        fun closed => .inl ((first.closed ((rest.closed closed).resolve_right id)).resolve_right id),
        fun k suppressed => (rest.suppressed k suppressed).elim (first.suppressed k) .inr⟩
  have all := each ns.dispatcher.queue
  exact ⟨all.stopping, fun _ => .inr trivial, all.suppressed⟩

end Silences

theorem stopping_checkTimeouts (ns : Namespace) : ns.checkTimeouts.2.stopping = ns.stopping :=
  ns.checkTimeouts_induction (P := (·.stopping = ns.stopping)) rfl fun _ _ same => same

end Namespace

namespace Stage

open Namespace (Silences)

variable {ns : Namespace} {stage : Stage} {r : ResourceId}

/-- Whoever is silenced is to be canceled next, and only `close` closes the dispatcher. -/
theorem silences (r : ResourceId) (going : ∀ l, stage = .leave l → (ns.lock l).state = .canceling) :
    Silences ns (stage.carryOut ns r).space
      (fun k => .mark k false ∈ (stage.carryOut ns r).next) (stage = .close) := by
  have releasing {ns' : Namespace} {who : LockId → Prop} {shuts : Prop}
      (silences : Silences ns ns' who shuts) (q : ResourceId) (outcome : Option Outcome) :
      Silences ns (Progress.releasing ns' q outcome).space who shuts :=
    silences.congr rfl rfl fun _ => rfl
  cases stage with
  | submit l discard =>
    simp only [carryOut]
    split
    · next done =>
      rcases Namespace.posts_submit done with rfl | ⟨a, posts, rfl⟩
      · exact .refl _
      · exact .conclude posts
    · cases discard with
      | true =>
        have silenced : Silences ns (ns.silence [l]) (· ∈ [l]) False := .silence ns [l]
        refine silenced.mono (fun k chosen => ?_) False.elim
        simp [List.mem_singleton.mp chosen]
      | false => exact .refl _
  | changeMode l mode =>
    simp only [carryOut]
    split
    · next done =>
      rcases Namespace.posts_changeMode done with rfl | ⟨a, posts, rfl⟩
      · exact .refl _
      · exact .conclude posts
    · exact .refl _
  | mark l join =>
    simp only [carryOut]
    split
    · next marked =>
      obtain ⟨x, entered, rfl⟩ := Option.map_eq_some_iff.mp marked
      obtain ⟨-, rfl⟩ := Lock.eq_enter_of_advance entered
      exact .modifyLock ns l rfl
    · exact .refl _
  | leave l => exact releasing (.leave (going l rfl) r) r none
  | ask q requester => exact releasing (.conclude (Arbiter.posts_glimpse _ requester)) q _
  | reclaim q =>
    have same : (ns.reclaim q).stopping = ns.stopping := by
      unfold Namespace.reclaim
      dsimp only
      split <;> rfl
    exact (Silences.refl ns).of_mail same (ns.mail_reclaim q)
  | move l target =>
    have same : (ns.move l target).2.2.stopping = ns.stopping := by
      unfold Namespace.move
      dsimp only
      split <;> rfl
    exact releasing ((Silences.refl ns).of_mail same (ns.mail_move l target)) _ _
  | forget owner => exact (Silences.refl ns).congr rfl rfl fun _ => rfl
  | close => exact (Silences.closeDispatcher ns).mono (fun _ => id) fun _ => rfl
  | look q others seen => cases others <;> exact .refl _
  | _ => exact .refl _

/-- After that the lock is on its way out, whoever was first. -/
theorem leaving_of_mark {l : LockId} (known : l < ns.locks.size) (r : ResourceId) (join : Bool) :
    (((Stage.mark l join).carryOut ns r).space.lock l).state.leaving = true := by
  simp only [carryOut]
  split
  · next marked =>
    obtain ⟨-, rfl⟩ := Namespace.mark?_eq marked
    rw [Namespace.lock_modifyLock, if_pos ⟨rfl, known⟩]
    rfl
  · next refused =>
    rw [← Bool.not_eq_false]
    intro stays
    have edge := LockState.allows_canceling_iff.mpr stays
    rw [Namespace.mark?, Lock.advance?_of_allows edge] at refused
    cases refused

end Stage

/-- Unless a shutdown begins, whoever is silenced is to be canceled, and locks come only while the
namespace is running. -/
theorem Opening.silences {ns ns' : Namespace} {todo : List Stage} (opening : Opening ns todo ns') :
    Namespace.Silences ns ns' (fun l => .mark l true ∈ todo) False ∧
        (ns'.locks.size = ns.locks.size ∨ ns.stopping = false) ∧ .close ∉ todo ∨
      ns.stopping = false ∧ ns' = ns.beginShutdown ∧
        todo = ns.live.map (.mark · true) ++ [.close] := by
  cases opening with
  | still plain => exact .inl ⟨.refl ns, .inl rfl, plain _⟩
  | @register req _ running _ _ plain =>
    have same := (ns.steady_addLock req).stopping
    exact .inl ⟨(Namespace.Silences.refl ns).of_mail same (ns.mail_addLock req), .inr running,
      plain _⟩
  | @rebind _ k _ _ =>
    have same := (Namespace.Steady.of_roster (ns.roster_findOrCreate k)).stopping
    exact .inl ⟨(Namespace.Silences.refl ns).of_mail same (ns.mail_findOrCreate k),
      .inl (ns.alike_findOrCreate k).size, by simp⟩
  | glimpse there requester =>
    exact .inl ⟨(Namespace.Silences.refl ns).congr rfl rfl fun _ => rfl, .inl rfl, by simp⟩
  | evict owner =>
    refine .inl ⟨(Namespace.Silences.silence ns _).mono (fun l owned => ?_) id,
      .inl (ns.alike_silence _).size, by simp⟩
    exact List.mem_append_left _ (List.mem_map.mpr ⟨l, owned, rfl⟩)
  | shutdown running => exact .inr ⟨running, rfl, rfl⟩

namespace System

variable {config : Config} {s t : System} {l : LockId}

/-- A cancel of the lock has begun, or is still to begin. -/
def Doomed (s : System) (l : LockId) : Prop :=
  (s.space.lock l).state.leaving = true ∨ ∃ i join, .mark l join ∈ (s.task i).todo

theorem Sound.doomed_step (sound : s.Sound) (doomed : Doomed s l) (step : Step s t) :
    Doomed t l := by
  rcases doomed with leaving | ⟨i, join, inside⟩
  · have fades := sound.space.ledger.coherent.fades (sound.steps step) (known_of_leaving leaving)
      leaving
    exact .inl fades.leaving
  · have old := lt_size_of_todo inside
    rcases todo_step step old with same | done
    · exact .inr ⟨i, join, same ▸ inside⟩
    · obtain ⟨stage, rest, q, todo, -, space, tasks⟩ := Sound.carryOut_cases done
      have known := sound.fits i _ inside
      rw [todo] at inside
      rcases List.mem_cons.mp inside with rfl | later
      · exact .inl (space ▸ Stage.leaving_of_mark known q join)
      · refine .inr ⟨i, join, ?_⟩
        rw [task_of_modify tasks old]
        exact List.mem_append_right _ later

/-- The step does not begin a shutdown. Whoever is silenced is to be canceled, and locks come only while
the namespace is running. -/
structure Abides (s t : System) : Prop where
  silences : Namespace.Silences s.space t.space
    (fun l => ∃ i join, .mark l join ∈ (t.task i).todo) (∃ i, .close ∈ (s.task i).todo)
  size : t.space.locks.size = s.space.locks.size ∨ s.space.stopping = false
  closing : ∀ i, .close ∈ (t.task i).todo → ∃ j, .close ∈ (s.task j).todo

/-- With the operation a shutdown begins. -/
structure Shuts (s : System) (op : Operation) : Prop where
  running : s.space.stopping = false
  space : (s.start op).space = s.space.beginShutdown
  todo : ((s.start op).task s.tasks.size).todo = s.space.live.map (.mark · true) ++ [.close]

theorem abides_start (s : System) (op : Operation) : Abides s (s.start op) ∨ Shuts s op := by
  have mine : ((s.start op).task s.tasks.size).todo = (Task.start s.space op).1.todo :=
    congrArg Task.todo (s.task_start op)
  rcases (Task.opening_start s.space op).silences with ⟨silences, size, closing⟩ |
    ⟨running, space, todo⟩
  · refine .inl ⟨silences.mono (fun l marked => ?_) False.elim, size, fun j inside => ?_⟩
    · exact ⟨s.tasks.size, true, mine ▸ marked⟩
    · by_cases here : j = s.tasks.size
      · rw [here, mine] at inside
        exact absurd inside closing
      · exact ⟨j, task_start_of_ne op here ▸ inside⟩
  · exact .inr ⟨running, space, mine.trans todo⟩

theorem Sound.abides_carryOut (sound : s.Sound) {i : TaskId} (done : s.carryOut? i = some t) :
    Abides s t := by
  obtain ⟨stage, rest, q, todo, prepared, space, tasks⟩ := Sound.carryOut_cases done
  have inside : stage ∈ (s.task i).todo := todo ▸ List.mem_cons_self
  have mine : (t.task i).todo = (stage.carryOut s.space q).next ++ rest :=
    congrArg Task.todo (task_of_modify tasks (lt_size_of_todo inside))
  have silences : Namespace.Silences s.space (stage.carryOut s.space q).space _ _ :=
    Stage.silences q (sound.ready todo prepared).going
  have size := (sound.effect todo prepared).size
  rw [← space] at silences size
  refine ⟨silences.mono (fun l marked => ?_) fun same => ?_, .inl size, fun j closes => ?_⟩
  · exact ⟨i, false, mine ▸ List.mem_append_left _ marked⟩
  · exact ⟨i, same ▸ inside⟩
  · exact ⟨j, mem_todo_of_carryOut done id closes⟩

/-- Nothing else begins a shutdown. -/
theorem Sound.abides (sound : s.Sound) (step : Step s t) :
    Abides s t ∨ ∃ op, Shuts s op ∧ t = s.start op := by
  have goes (ns : Namespace) (same : Namespace.Alike s.space ns)
      (silences : ∀ who shuts, Namespace.Silences s.space ns who shuts) :
      Abides s { s with space := ns } :=
    ⟨silences _ _, .inl same.size, fun j inside => ⟨j, inside⟩⟩
  cases step with
  | start op => exact (s.abides_start op).imp_right fun shuts => ⟨op, shuts, rfl⟩
  | @hold h l found =>
    refine .inl ⟨.refl s.space, .inl rfl, fun j inside => ⟨j, ?_⟩⟩
    unfold System.task startHold at inside
    rw [Arena.get_alloc] at inside
    split at inside
    · simp at inside
    · exact inside
  | take i taken =>
    obtain ⟨p, -, -, rfl⟩ := take?_eq taken
    refine .inl ⟨.refl s.space, .inl rfl, fun j inside => ⟨j, ?_⟩⟩
    rwa [s.todo_hand] at inside
  | carryOut i done => exact .inl (sound.abides_carryOut done)
  | takeUp taken => exact .inl (goes _ (Namespace.alike_takeUp taken) fun _ _ => .takeUp taken)
  | finish busy => exact .inl (goes _ (Namespace.alike_finish _ _) fun _ _ => .finish s.space _)
  | checkTimeouts =>
    exact .inl (goes _ (Namespace.alike_checkTimeouts _) fun who shuts =>
      (Namespace.Silences.refl s.space).of_mail s.space.stopping_checkTimeouts
        s.space.mail_checkTimeouts)
  | pass duration =>
    exact .inl (goes _ (Namespace.alike_pass _ duration) fun who shuts =>
      (Namespace.Silences.refl s.space).congr rfl rfl fun _ => rfl)

/-- Whoever is silenced is doomed, and so is whoever a handle names once a shutdown has begun. The
dispatcher is closed by a shutdown only. -/
structure Parting (s : System) : Prop where
  silenced : ∀ l, (s.space.lock l).suppressed = true → Doomed s l
  stopped : s.space.stopping = true → ∀ l ∈ s.space.live, Doomed s l
  closing : ∀ i, .close ∈ (s.task i).todo → s.space.stopping = true
  closed : s.space.dispatcher.closed = true → s.space.stopping = true

namespace Parting

theorem next (parting : Parting s) (sound : s.Sound) (step : Step s t) (abides : Abides s t) :
    Parting t := by
  obtain ⟨silences, size, closing⟩ := abides
  refine ⟨fun l now => ?_, fun now l live => ?_, fun i inside => ?_, fun now => ?_⟩
  · rcases silences.suppressed l now with before | marked
    · exact sound.doomed_step (parting.silenced l before) step
    · exact .inr marked
  · rw [silences.stopping] at now
    rcases size with same | running
    · exact sound.doomed_step (parting.stopped now l (sound.live_of_size step same live)) step
    · rw [running] at now
      cases now
  · obtain ⟨j, before⟩ := closing i inside
    exact silences.stopping.trans (parting.closing j before)
  · rw [silences.stopping]
    rcases silences.closed now with before | ⟨j, before⟩
    · exact parting.closed before
    · exact parting.closing j before

/-- Every lock that is left is about to be marked, and no more come. -/
theorem shut (parting : Parting s) (sound : s.Sound) {op : Operation} (shuts : Shuts s op) :
    Parting (s.start op) := by
  have space := shuts.space
  have marked (l : LockId) (live : l ∈ s.space.live) : Doomed (s.start op) l := by
    refine .inr ⟨s.tasks.size, true, ?_⟩
    rw [shuts.todo]
    exact List.mem_append_left _ (List.mem_map.mpr ⟨l, live, rfl⟩)
  have stopping : (s.start op).space.stopping = true := congrArg Namespace.stopping space
  have silences : Namespace.Silences s.space (s.space.silence s.space.live) (· ∈ s.space.live)
      False := .silence s.space s.space.live
  refine ⟨fun l now => ?_, fun _ l live => ?_, fun _ _ => stopping, fun _ => stopping⟩
  · rw [space] at now
    rcases silences.suppressed l now with before | live
    · exact sound.doomed_step (parting.silenced l before) (.start s op)
    · exact marked l live
  · have same : (s.start op).space.live = s.space.live := by
      rw [space]
      exact congrArg HandleTable.entries s.space.alike_beginShutdown.handles
    exact marked l (same ▸ live)

theorem step (parting : Parting s) (sound : s.Sound) (step : Step s t) : Parting t := by
  rcases sound.abides step with abides | ⟨op, shuts, rfl⟩
  · exact parting.next sound step abides
  · exact parting.shut sound shuts

theorem create {ns : Namespace} (created : Namespace.create config = .ok ns) :
    Parting { space := ns } := by
  obtain ⟨-, rfl⟩ := Namespace.create_eq_ok.mp created
  refine ⟨fun l now => ?_, nofun, fun i inside => ?_, nofun⟩
  · have beyond : Namespace.lock { config } l = default :=
      Namespace.lock_beyond (Nat.not_lt_zero l)
    rw [beyond] at now
    cases now
  · exact absurd (lt_size_of_todo inside) (Nat.not_lt_zero i)

end Parting

theorem Reachable.parting (reachable : Reachable config s) : Parting s := by
  induction reachable using Reachable.induction with
  | create created => exact .create created
  | step before last ih => exact ih.step before.sound last

/-- With no operation in progress a doomed lock has gone. -/
theorem Sound.gone_of_doomed (sound : s.Sound) (quiet : s.quiet = true) (known : l < s.space.locks.size)
    (doomed : Doomed s l) : ¬s.space.Alive l := by
  rintro ⟨-, stays⟩
  rcases doomed with leaving | ⟨i, join, inside⟩
  · have canceled : (s.space.lock l).state = .canceled := by
      have canceling := sound.ne_canceling quiet known
      cases state : (s.space.lock l).state <;> simp_all [LockState.leaving]
    have retired : (s.space.lock l).retired = true := (sound.space.ledger.retired l known).mpr canceled
    rw [stays] at retired
    cases retired
  · rw [todo_of_quiet quiet] at inside
    cases inside

end System
end LockManager
