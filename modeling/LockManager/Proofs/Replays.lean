import LockManager.Proofs.Namespace.Replays
import LockManager.Proofs.System.Schedule

set_option autoImplicit false

/-!
Whether one numbered request can make two locks that live at a time. It can, but only if an eviction
of the owner that had begun when the first lock was made has ended since: the eviction does not
touch that lock, but forgets that it answers its request.
-/

namespace LockManager

open Namespace (Records)

namespace Stage

/-- The stage is about the end of lock `k`, and another such stage follows it while `k` stays. -/
def Ends (k : LockId) : Stage → Prop
  | .mark l join => l = k ∧ join = true
  | .leave l | .awaitRetired l => l = k
  | _ => False

theorem ends_next (ns : Namespace) (r : ResourceId) {stage : Stage} {k : LockId}
    (ends : stage.Ends k) (stays : stage ≠ .leave k) (waits : stage ≠ .awaitRetired k) :
    ∃ next ∈ (stage.carryOut ns r).next, next.Ends k := by
  cases stage with
  | mark l join =>
    obtain ⟨rfl, rfl⟩ := ends
    simp only [carryOut]
    split
    · exact ⟨.leave l, List.mem_singleton_self _, rfl⟩
    · exact ⟨.awaitRetired l, List.mem_singleton_self _, rfl⟩
  | leave l => exact absurd (congrArg Stage.leave ends) stays
  | awaitRetired l => exact absurd (congrArg Stage.awaitRetired ends) waits
  | _ => exact ends.elim

/-- Stages that an operation may come to when it has begun. With the others it begins. -/
def Follows : Stage → Prop
  | .mark .. | .leave _ | .awaitRetired _ | .reclaim _ | .look .. => True
  | _ => False

theorem follows_of_mem_next (ns : Namespace) (r : ResourceId) (stage : Stage) :
    ∀ next ∈ (stage.carryOut ns r).next, next.Follows := by
  intro next inside
  cases yields_of_mem_next inside <;> trivial

end Stage

/-- No other operation forgets an owner's requests. -/
theorem Task.forget_mem_start {ns : Namespace} {op : Operation} {owner : Owner}
    (inside : .forget owner ∈ (start ns op).1.todo) : op = .evict owner := by
  cases op with
  | evict other =>
    rcases List.mem_append.mp inside with mark | last
    · obtain ⟨l, -, same⟩ := List.mem_map.mp mark
      cases same
    · cases List.mem_singleton.mp last
      rfl
  | _ =>
    exfalso
    unfold start at inside
    dsimp only at inside
    (repeat' split at inside) <;> simp [answered] at inside

namespace System

variable {config : Config} {s t : System} {i : TaskId} {k l : LockId} {owner : Owner}

/-- A stage that an operation begins with has been there from the beginning. -/
theorem mem_todo_of_carryOut (done : s.carryOut? i = some t) {stage : Stage}
    (first : ¬stage.Follows) {j : TaskId} (inside : stage ∈ (t.task j).todo) :
    stage ∈ (s.task j).todo := by
  obtain ⟨now, rest, q, todo, -, -, tasks⟩ := Sound.carryOut_cases done
  have old : i < s.tasks.size := lt_size_of_todo (todo ▸ List.mem_cons_self)
  by_cases here : j = i
  · rw [here, task_of_modify tasks old] at inside
    rcases List.mem_append.mp inside with new | later
    · exact absurd (now.follows_of_mem_next s.space q stage new) first
    · rw [here, todo]
      exact List.mem_cons_of_mem _ later
  · rwa [task_of_ne tasks here] at inside

/-! ### What lasts -/

/-- The lock is the same as before, and has not come back. -/
structure Lasts (s t : System) (k : LockId) : Prop where
  known : k < t.space.locks.size
  claim : (t.space.lock k).claim = (s.space.lock k).claim
  alive : t.space.Alive k → s.space.Alive k

theorem Lasts.of_outline (known : k < s.space.locks.size)
    (size : s.space.locks.size ≤ t.space.locks.size)
    (lock : (t.space.lock k).outline = (s.space.lock k).outline) : Lasts s t k := by
  refine ⟨Nat.lt_of_lt_of_le known size, (congrArg Lock.claim lock :), fun alive => ⟨known, ?_⟩⟩
  rw [← alive.2]
  exact (congrArg Lock.retired lock.symm :)

/-- Carrying out a stage is done with a lock only if the lock leaves. -/
theorem Sound.records (sound : s.Sound) {stage : Stage} {rest : List Stage} {q : ResourceId}
    (todo : (s.task i).todo = stage :: rest) (prepared : s.prepared? i = some q) :
    Records s.space (stage.carryOut s.space q).space fun k => stage = .leave k :=
  (sound.ready todo prepared).records sound.space

theorem Sound.lasts (sound : s.Sound) (step : Step s t) (known : k < s.space.locks.size) :
    Lasts s t k := by
  rcases sound.change step with ⟨op, space⟩ | ⟨stage, r, ready, space⟩ | same
  · have begun := Task.begun_start sound.space op
    rw [← space] at begun
    exact .of_outline known begun.size (begun.lock k known)
  · have records := ready.records sound.space
    rw [← space] at records
    exact ⟨records.size.symm ▸ known, records.claim k, fun alive => (records.alive_iff.mp alive).1⟩
  · exact .of_outline known (Nat.le_of_eq same.size.symm) (same.lock k)

theorem Sound.grows (sound : s.Sound) (step : Step s t) :
    s.space.locks.size ≤ t.space.locks.size :=
  Nat.le_of_not_lt fun less => Nat.lt_irrefl _ (sound.lasts step less).known

/-! ### What a step does to requests -/

/-- No request is answered otherwise than before, a lock is made for a new one, the lock of one
leaves, or those of an owner are forgotten. -/
inductive Turn (s t : System) : Prop where
  | same (size : t.space.locks.size = s.space.locks.size)
      (handles : t.space.handles = s.space.handles) (replays : t.space.replays = s.space.replays)
  | made {req : LockRequest} (valid : req.policy.fault? = none)
      (new : s.space.replayOf? req = none) (space : t.space = (s.space.addLock req).2)
  | left {l : LockId} (alive : s.space.Alive l) (gone : ¬t.space.Alive l)
      (size : t.space.locks.size = s.space.locks.size)
      (handles : t.space.handles = s.space.handles.remove (s.space.lock l).handle)
      (replays : t.space.replays = (s.space.dropReplay (s.space.lock l).claim).replays)
  | forgot {i : TaskId} {owner : Owner} {rest : List Stage}
      (todo : (s.task i).todo = .forget owner :: rest) (done : s.carryOut? i = some t)
      (space : t.space = s.space.forget owner)

namespace Turn

theorem of_books {ns : Namespace} (same : Namespace.Alike s.space ns)
    (books : ns.books = s.space.books) : Turn s { s with space := ns } :=
  .same same.size (Namespace.handles_of_books books) (Namespace.replays_of_books books)

theorem of_opening {todo : List Stage} (opening : Opening s.space todo t.space) : Turn s t := by
  generalize ns : t.space = after at opening
  cases opening with
  | still plain => exact .same (by rw [ns]) (by rw [ns]) (by rw [ns])
  | register running valid new plain => exact .made valid new ns
  | @rebind l k known client =>
    have same := s.space.alike_findOrCreate k
    rw [← ns] at same
    exact .same same.size same.handles (ns ▸ s.space.replays_findOrCreate k)
  | @glimpse k r there requester =>
    have same := s.space.alike_addRef r
    rw [← ns] at same
    exact .same same.size same.handles (ns ▸ rfl)
  | evict owner =>
    have same := s.space.alike_silence (s.space.ownedBy owner)
    have books := s.space.books_silence (s.space.ownedBy owner)
    rw [← ns] at same books
    exact .same same.size same.handles (Namespace.replays_of_books books)
  | shutdown running =>
    have same := s.space.alike_silence s.space.live
    have books := s.space.books_silence s.space.live
    refine .same ?_ ?_ ?_ <;> rw [ns]
    · exact same.size
    · exact same.handles
    · exact Namespace.replays_of_books books

theorem of_carryOut (sound : s.Sound) (done : s.carryOut? i = some t) : Turn s t := by
  obtain ⟨stage, rest, q, todo, prepared, space, -⟩ := Sound.carryOut_cases done
  have records := sound.records todo prepared
  rw [← space] at records
  have other (stays : ∀ l, stage ≠ .leave l) (keeps : ∀ owner, stage ≠ .forget owner) :
      Turn s t := by
    obtain answers : (stage.carryOut s.space q).space.handles = s.space.handles ∧
        (stage.carryOut s.space q).space.replays = s.space.replays :=
      Stage.answers_carryOut stays keeps
    rw [← space] at answers
    exact .same records.size answers.1 answers.2
  cases stage with
  | leave l =>
    have ready := sound.ready todo prepared
    have known : l < s.space.locks.size := ready.fits
    have canceling := ready.going l rfl
    have books := sound.space.books_leave known (ready.bound l _ rfl) canceling
    have alive : s.space.Alive l := sound.space.alive known (by rw [canceling]; simp)
    have released := Progress.answers_releasing (s.space.leave l q) q none
    refine .left alive (fun still => (records.alive_iff.mp still).2 rfl) records.size ?_ ?_ <;>
      rw [space]
    · exact released.1.trans books.1
    · exact released.2.trans books.2
  | forget owner => exact .forgot todo done space
  | _ => exact other (by simp) (by simp)

end Turn

theorem Sound.turn (sound : s.Sound) (step : Step s t) : Turn s t := by
  cases step with
  | start op => exact .of_opening (Task.opening_start s.space op)
  | hold found => exact .same rfl rfl rfl
  | take i taken =>
    obtain ⟨p, -, -, rfl⟩ := take?_eq taken
    exact .same rfl rfl rfl
  | carryOut i done => exact .of_carryOut sound done
  | takeUp taken => exact .of_books (Namespace.alike_takeUp taken) (Namespace.books_takeUp taken)
  | finish busy => exact .of_books (Namespace.alike_finish _ _) (Namespace.books_finish _ _)
  | checkTimeouts =>
    exact .of_books (Namespace.alike_checkTimeouts _) (Namespace.books_checkTimeouts _)
  | pass duration => exact .same rfl rfl rfl

/-- At most one handle is issued or given back. -/
theorem Turn.handles (turn : Turn s t) : t.space.handles = s.space.handles ∨
    (∃ l, t.space.handles = s.space.handles.insertWith fun _ => l) ∨
      ∃ h, t.space.handles = s.space.handles.remove h := by
  cases turn with
  | same size handles replays => exact .inl handles
  | @made req valid new space =>
    refine .inr (.inl ⟨s.space.locks.size, ?_⟩)
    rw [space, Namespace.handles_addLock]
  | left alive gone size handles replays => exact .inr (.inr ⟨_, handles⟩)
  | forgot todo done space => exact .inl (congrArg Namespace.handles space :)

/-- The table of handles never gets smaller. -/
theorem Turn.room (turn : Turn s t) (room : t.space.Room) : s.space.Room := by
  unfold Namespace.Room at room ⊢
  rcases turn.handles with same | ⟨l, more⟩ | ⟨h, less⟩
  · rwa [same] at room
  · rw [more] at room
    exact Nat.le_trans (HandleTable.size_le_insertWith _) room
  · rwa [less, HandleTable.size_remove] at room

theorem Turn.numbered (turn : Turn s t) (numbered : s.space.handles.Numbered) :
    t.space.handles.Numbered := by
  rcases turn.handles with same | ⟨l, more⟩ | ⟨h, less⟩
  · rwa [same]
  · exact more ▸ numbered.insertWith _
  · exact less ▸ numbered.remove h

theorem Reachable.numbered (reachable : Reachable config s) : s.space.handles.Numbered := by
  induction reachable using Reachable.induction with
  | create created =>
    obtain ⟨-, rfl⟩ := Namespace.create_eq_ok.mp created
    exact HandleTable.numbered_empty
  | step before last ih => exact (before.sound.turn last).numbered ih

theorem Sound.grown (sound : s.Sound) (run : Reaches s t) :
    s.space.locks.size ≤ t.space.locks.size := by
  induction run with
  | refl => exact Nat.le_refl _
  | step before last ih => exact Nat.le_trans ih ((sound.reaches before).grows last)

theorem Sound.room_of_reaches (sound : s.Sound) (run : Reaches s t) (room : t.space.Room) :
    s.space.Room := by
  induction run with
  | refl => exact room
  | step before last ih => exact ih (((sound.reaches before).turn last).room room)

/-! ### Evictions -/

/-- Task `i` is an eviction of the owner, begun at `a`: before it forgets the owner's requests, it
sees the end of every lock that the owner had then. -/
structure Evicting (a s : System) (i : TaskId) (owner : Owner) : Prop where
  task : i = a.tasks.size
  run : Reaches (a.start (.evict owner)) s
  size : a.space.locks.size ≤ s.space.locks.size
  ends : ∃ before, (s.task i).todo = before ++ [.forget owner] ∧ (∀ o, .forget o ∉ before) ∧
    ∀ k, k < a.space.locks.size → s.space.Alive k → (s.space.lock k).claim.owner = owner →
      ∃ stage ∈ before, stage.Ends k

theorem Evicting.start (sound : s.Sound) (room : s.space.Room) (owner : Owner) :
    Evicting s (s.start (.evict owner)) s.tasks.size owner := by
  have todo : ((s.start (.evict owner)).task s.tasks.size).todo =
      (s.space.ownedBy owner).map (.mark · true) ++ [.forget owner] :=
    congrArg Task.todo (s.task_start _)
  refine ⟨rfl, .refl, sound.grows (.start s _), _, todo, fun o inside => ?_,
    fun k known alive owned => ?_⟩
  · obtain ⟨l, -, same⟩ := List.mem_map.mp inside
    cases same
  · have lasts := sound.lasts (.start s (.evict owner)) known
    rw [lasts.claim] at owned
    have there := (sound.space.mem_live_iff room).mpr (lasts.alive alive)
    refine ⟨.mark k true, List.mem_map.mpr ⟨k, ?_, rfl⟩, rfl, rfl⟩
    exact List.mem_filter.mpr ⟨there, decide_eq_true owned⟩

/-- A lock that is alive after a stage about its end has another such stage to come. -/
theorem Sound.ends_carryOut (sound : s.Sound) {stage : Stage} {rest : List Stage} {q : ResourceId}
    (todo : (s.task i).todo = stage :: rest) (prepared : s.prepared? i = some q)
    (ends : stage.Ends k) (alive : (stage.carryOut s.space q).space.Alive k) :
    ∃ next ∈ (stage.carryOut s.space q).next, next.Ends k := by
  obtain ⟨before, stays⟩ := (sound.records todo prepared).alive_iff.mp alive
  apply Stage.ends_next s.space q ends stays
  rintro rfl
  have need := Sound.need_of_todo todo
  unfold prepared? at prepared
  rw [need] at prepared
  simp [Stage.need, before.2] at prepared

/-- The task has not gone on. -/
theorem Evicting.wait {a : System} (evicting : Evicting a s i owner) (sound : s.Sound)
    (step : Step s t) (todo : (t.task i).todo = (s.task i).todo) : Evicting a t i owner := by
  obtain ⟨before, shape, others, ends⟩ := evicting.ends
  refine ⟨evicting.task, .step evicting.run step, Nat.le_trans evicting.size (sound.grows step),
    before, todo.trans shape, others, ?_⟩
  intro k known alive owned
  have lasts := sound.lasts step (Nat.lt_of_lt_of_le known evicting.size)
  exact ends k known (lasts.alive alive) (lasts.claim ▸ owned)

/-- The task has gone on, and has not come to forgetting yet. -/
theorem Evicting.advance {a : System} (evicting : Evicting a s i owner) (sound : s.Sound)
    (done : s.carryOut? i = some t) (still : .forget owner ∈ (t.task i).todo) :
    Evicting a t i owner := by
  obtain ⟨before, shape, others, ends⟩ := evicting.ends
  obtain ⟨stage, rest, q, todo, prepared, space, tasks⟩ := Sound.carryOut_cases done
  have inside : i < s.tasks.size := lt_size_of_todo (todo ▸ List.mem_cons_self)
  have mine : (t.task i).todo = (stage.carryOut s.space q).next ++ rest :=
    congrArg Task.todo (task_of_modify tasks inside)
  have records := sound.records todo prepared
  rw [← space] at records
  rw [shape] at todo
  cases before with
  | nil =>
    obtain ⟨rfl, rfl⟩ := List.cons.inj todo
    rw [mine] at still
    cases still
  | cons x before =>
    obtain ⟨rfl, rfl⟩ := List.cons.inj todo
    have step : Step s t := .carryOut i done
    refine ⟨evicting.task, .step evicting.run step, Nat.le_trans evicting.size (sound.grows step),
      (x.carryOut s.space q).next ++ before, ?_, fun o member => ?_, fun k known alive owned => ?_⟩
    · exact mine.trans (List.append_assoc ..).symm
    · rcases List.mem_append.mp member with new | later
      · exact x.follows_of_mem_next s.space q _ new
      · exact others o (List.mem_cons_of_mem _ later)
    · rw [records.claim] at owned
      obtain ⟨stage, member, about⟩ := ends k known (records.alive_iff.mp alive).1 owned
      rcases List.mem_cons.mp member with rfl | later
      · rw [space] at alive
        obtain ⟨next, new, about⟩ := sound.ends_carryOut shape prepared about alive
        exact ⟨next, List.mem_append_left _ new, about⟩
      · exact ⟨stage, List.mem_append_right _ later, about⟩

theorem todo_step (step : Step s t) (old : i < s.tasks.size) :
    (t.task i).todo = (s.task i).todo ∨ s.carryOut? i = some t := by
  have alloc (task : Task) : ((s.tasks.alloc task).get i).todo = (s.task i).todo := by
    rw [Arena.get_alloc, if_neg (Nat.ne_of_lt old)]
    rfl
  cases step with
  | start op => exact .inl (alloc _)
  | hold found => exact .inl (alloc _)
  | take j taken =>
    obtain ⟨p, -, -, rfl⟩ := take?_eq taken
    exact .inl (s.todo_hand j _ i)
  | carryOut j done =>
    by_cases same : j = i
    · exact .inr (same ▸ done)
    · obtain ⟨stage, rest, q, -, -, -, tasks⟩ := Sound.carryOut_cases done
      exact .inl (congrArg Task.todo (task_of_ne tasks (Ne.symm same)))
  | _ => exact .inl rfl

/-- A task that is to forget an owner's requests and was not there before is an eviction. -/
theorem start_of_forget (step : Step s t) (new : ¬i < s.tasks.size)
    (inside : .forget owner ∈ (t.task i).todo) :
    i = s.tasks.size ∧ t = s.start (.evict owner) := by
  have below := lt_size_of_todo inside
  have last (task : Task) (below : i < (s.tasks.alloc task).size) : i = s.tasks.size := by
    rw [Arena.size_alloc] at below
    exact Nat.le_antisymm (Nat.le_of_lt_succ below) (Nat.le_of_not_lt new)
  cases step with
  | start op =>
    obtain rfl := last _ below
    rw [task_start] at inside
    exact ⟨rfl, congrArg s.start (Task.forget_mem_start inside)⟩
  | @hold h l found =>
    obtain rfl := last _ below
    have todo : ((s.startHold l s.role).task s.tasks.size).todo = [.hold l s.role] :=
      congrArg Task.todo (Arena.get_alloc_size ..)
    rw [todo] at inside
    cases List.mem_singleton.mp inside
  | take j taken =>
    obtain ⟨p, -, -, rfl⟩ := take?_eq taken
    exact absurd (Nat.lt_of_lt_of_eq below (Arena.size_modify ..)) new
  | carryOut j done =>
    obtain ⟨stage, rest, q, -, -, -, tasks⟩ := Sound.carryOut_cases done
    rw [tasks, Arena.size_modify] at below
    exact absurd below new
  | _ => exact absurd below new

/-! ### Locks for one request -/

/-- A lock that answers copies of its request goes on answering them, unless this step forgets the
requests of its owner. A new lock answers them. -/
theorem Sound.answers_step (sound : s.Sound) (room : s.space.Room) (step : Step s t)
    (alive : t.space.Alive l) (answers : l < s.space.locks.size → s.space.Answers l) :
    t.space.Answers l ∨ ∃ i rest,
      (s.task i).todo = .forget (s.space.lock l).claim.owner :: rest ∧ s.carryOut? i = some t ∧
        l < s.space.locks.size := by
  cases sound.turn step with
  | same size handles replays =>
    have known : l < s.space.locks.size := size ▸ alive.1
    exact .inl ((answers known).congr (sound.lasts step known).claim replays)
  | @made req valid new space =>
    left
    by_cases known : l < s.space.locks.size
    · have lasts := sound.lasts step known
      have claim := lasts.claim
      rw [space] at claim ⊢
      exact (answers known).addLock sound.space room new (lasts.alive alive) claim
    · have last : l = s.space.locks.size := by
        have below := alive.1
        rw [space, (sound.space.addLock valid).size] at below
        exact Nat.le_antisymm (Nat.le_of_lt_succ below) (Nat.le_of_not_lt known)
      rw [last, space]
      exact s.space.answers_addLock req
  | @left m leaving gone size handles replays =>
    have known : l < s.space.locks.size := size ▸ alive.1
    have lasts := sound.lasts step known
    have other : l ≠ m := fun same => gone (same ▸ alive)
    exact .inl ((answers known).leave sound.space room (lasts.alive alive) leaving other lasts.claim
      replays)
  | @forgot i owner rest todo done space =>
    have known : l < s.space.locks.size := by
      have below := alive.1
      rwa [space] at below
    by_cases owned : (s.space.lock l).claim.owner = owner
    · exact .inr ⟨i, rest, owned ▸ todo, done, known⟩
    · left
      rw [space]
      exact (answers known).forget owned

/-- An eviction that had begun before `l` was made has ended while `l` was alive. -/
def Disowned (config : Config) (s : System) (l : LockId) : Prop :=
  ∃ a b c : System, Reachable config a ∧
    Reaches (a.start (.evict (s.space.lock l).claim.owner)) b ∧ a.space.locks.size ≤ l ∧
    b.space.Alive l ∧ (b.task a.tasks.size).todo = [.forget (s.space.lock l).claim.owner] ∧
    b.carryOut? a.tasks.size = some c ∧ Reaches c s

theorem Disowned.step (disowned : Disowned config s l) (sound : s.Sound) (step : Step s t)
    (known : l < s.space.locks.size) : Disowned config t l := by
  unfold Disowned at disowned ⊢
  rw [(sound.lasts step known).claim]
  obtain ⟨a, b, c, reachable, begun, young, alive, todo, done, after⟩ := disowned
  exact ⟨a, b, c, reachable, begun, young, alive, todo, done, .step after step⟩

/-- An eviction that is about to forget has seen the end of all locks but those made since. -/
theorem Evicting.disowns {a : System} {rest : List Stage} (evicting : Evicting a s i owner)
    (reachable : Reachable config a) (todo : (s.task i).todo = .forget owner :: rest)
    (done : s.carryOut? i = some t) (alive : s.space.Alive l)
    (owned : (s.space.lock l).claim.owner = owner)
    (claim : (t.space.lock l).claim = (s.space.lock l).claim) : Disowned config t l := by
  obtain ⟨before, shape, others, ends⟩ := evicting.ends
  obtain rfl : before = [] := by
    cases before with
    | nil => rfl
    | cons x before =>
      rw [todo] at shape
      obtain ⟨rfl, -⟩ := List.cons.inj shape
      exact absurd List.mem_cons_self (others owner)
  have young : a.space.locks.size ≤ l := by
    apply Nat.le_of_not_lt
    intro old
    obtain ⟨stage, member, -⟩ := ends l old alive owned
    cases member
  unfold Disowned
  rw [claim, owned]
  obtain rfl := evicting.task
  exact ⟨a, s, t, reachable, evicting.run, young, alive, shape, done, .refl⟩

/-- What is known of numbered requests at every point of a run. -/
structure Tracked (config : Config) (s : System) : Prop where
  evictions : ∀ i owner, .forget owner ∈ (s.task i).todo →
    ∃ a, Reachable config a ∧ Evicting a s i owner
  answers : ∀ l, s.space.Alive l → s.space.Answers l ∨ Disowned config s l
  copies : ∀ k l, k < l → s.space.Alive k → s.space.Alive l → s.space.Copies k l →
    Disowned config s k

namespace Tracked

theorem evictions_step (tracked : Tracked config s) (reachable : Reachable config s)
    (room : s.space.Room) (step : Step s t) (inside : .forget owner ∈ (t.task i).todo) :
    ∃ a, Reachable config a ∧ Evicting a t i owner := by
  have sound := reachable.sound
  by_cases old : i < s.tasks.size
  · rcases todo_step step old with same | done
    · obtain ⟨a, began, evicting⟩ := tracked.evictions i owner (same ▸ inside)
      exact ⟨a, began, evicting.wait sound step same⟩
    · obtain ⟨a, began, evicting⟩ := tracked.evictions i owner (mem_todo_of_carryOut done id inside)
      exact ⟨a, began, evicting.advance sound done inside⟩
  · obtain ⟨rfl, rfl⟩ := start_of_forget step old inside
    exact ⟨s, reachable, .start sound room owner⟩

theorem answers_step (tracked : Tracked config s) (reachable : Reachable config s)
    (room : s.space.Room) (step : Step s t) (alive : t.space.Alive l) :
    t.space.Answers l ∨ Disowned config t l := by
  have sound := reachable.sound
  by_cases known : l < s.space.locks.size
  · have lasts := sound.lasts step known
    rcases tracked.answers l (lasts.alive alive) with answers | disowned
    · rcases sound.answers_step room step alive fun _ => answers with still |
        ⟨i, rest, todo, done, -⟩
      · exact .inl still
      · obtain ⟨a, began, evicting⟩ := tracked.evictions i _ (todo ▸ List.mem_cons_self)
        exact .inr (evicting.disowns began todo done (lasts.alive alive) rfl lasts.claim)
    · exact .inr (disowned.step sound step known)
  · rcases sound.answers_step room step alive fun before => absurd before known with still |
      ⟨i, rest, todo, done, before⟩
    · exact .inl still
    · exact absurd before known

theorem copies_step (tracked : Tracked config s) (reachable : Reachable config s)
    (room : s.space.Room) (step : Step s t) (older : k < l) (alive : t.space.Alive k)
    (alive' : t.space.Alive l) (copies : t.space.Copies k l) : Disowned config t k := by
  have sound := reachable.sound
  by_cases known' : l < s.space.locks.size
  · have known := Nat.lt_trans older known'
    have first := sound.lasts step known
    have second := sound.lasts step known'
    have disowned := tracked.copies k l older (first.alive alive) (second.alive alive')
      (copies.congr first.claim.symm second.claim.symm)
    exact disowned.step sound step known
  · cases sound.turn step with
    | same size handles replays => exact absurd (size ▸ alive'.1) known'
    | left leaving gone size handles replays => exact absurd (size ▸ alive'.1) known'
    | forgot todo done space =>
      rw [space] at alive'
      exact absurd alive'.1 known'
    | @made req valid new space =>
      have last : l = s.space.locks.size := by
        have below := alive'.1
        rw [space, (sound.space.addLock valid).size] at below
        exact Nat.le_antisymm (Nat.le_of_lt_succ below) (Nat.le_of_not_lt known')
      have known : k < s.space.locks.size := last ▸ older
      have lasts := sound.lasts step known
      obtain ⟨owner, seq, made, asked⟩ := copies
      rw [last, space, Namespace.claim_addLock] at owner asked
      rw [← space, lasts.claim] at owner
      rw [lasts.claim] at made
      have silent := sound.space.not_answers room new (lasts.alive alive) owner asked made
      have disowned := (tracked.answers k (lasts.alive alive)).resolve_left silent
      exact disowned.step sound step known

theorem step (tracked : Tracked config s) (reachable : Reachable config s) (room : s.space.Room)
    (step : Step s t) : Tracked config t :=
  ⟨fun _ _ => tracked.evictions_step reachable room step,
    fun _ => tracked.answers_step reachable room step,
    fun _ _ => tracked.copies_step reachable room step⟩

end Tracked

theorem Reachable.tracked (reachable : Reachable config s) (room : s.space.Room) :
    Tracked config s := by
  induction reachable using Reachable.induction with
  | create created =>
    obtain ⟨-, rfl⟩ := Namespace.create_eq_ok.mp created
    refine ⟨fun i owner inside => ?_, fun l alive => absurd alive.1 (Nat.not_lt_zero l),
      fun k l _ alive => absurd alive.1 (Nat.not_lt_zero k)⟩
    exact absurd (lt_size_of_todo inside) (Nat.not_lt_zero i)
  | step before last ih =>
    have room := (before.sound.turn last).room room
    exact (ih room).step before room last

/-- At no point are there two live locks for one numbered request, unless an eviction of the owner
that had begun before the first of them was made has ended since. -/
theorem one_lock_per_request (reachable : Reachable config s) (room : s.space.Room)
    (live : k ∈ s.space.live) (live' : l ∈ s.space.live) (copies : s.space.Copies k l) :
    k = l ∨ Disowned config s (min k l) := by
  have sound := reachable.sound.space
  have alive := (sound.mem_live_iff room).mp live
  have alive' := (sound.mem_live_iff room).mp live'
  have tracked := reachable.tracked room
  rcases Nat.lt_trichotomy k l with older | same | older
  · rw [Nat.min_eq_left (Nat.le_of_lt older)]
    exact .inr (tracked.copies k l older alive alive' copies)
  · exact .inl same
  · rw [Nat.min_eq_right (Nat.le_of_lt older)]
    exact .inr (tracked.copies l k older alive' alive copies.symm)

/-- An owner is evicted, and meanwhile sends one numbered request twice: the second time when the
eviction has ended. -/
def evictionOvertaken : System :=
  let again : Operation :=
    .enqueue { key := ⟨2, 0⟩, mode := .protectedRead, owner := ⟨"a"⟩, clientSeq := some 7 }
  (fresh {}).follow
    (Move.through (.enqueue { key := ⟨1, 0⟩, mode := .exclusive, owner := ⟨"a"⟩ }) 0 ++
      [.start (.evict ⟨"a"⟩), .carryOut 1] ++ Move.through again 2 ++
      [.take 1, .take 1, .carryOut 1, .take 1, .carryOut 1, .carryOut 1] ++ Move.through again 3)

theorem one_lock_per_request_eviction :
    1 ∈ evictionOvertaken.space.live ∧ 2 ∈ evictionOvertaken.space.live ∧
      Disowned {} evictionOvertaken 1 := by
  have reachable : Reachable {} evictionOvertaken := reachable_follow rfl _
  have live : 1 ∈ evictionOvertaken.space.live := by decide +kernel
  have live' : 2 ∈ evictionOvertaken.space.live := by decide +kernel
  have copies : evictionOvertaken.space.Copies 1 2 :=
    ⟨by decide +kernel, 7, by decide +kernel, by decide +kernel⟩
  have room : evictionOvertaken.space.Room := by decide +kernel
  exact ⟨live, live', (one_lock_per_request reachable room live live' copies).resolve_left (by decide)⟩

/-- The request has two live locks then, though no operation is in progress any more. -/
theorem eviction_overtaken_two_locks :
    Reachable {} evictionOvertaken ∧ evictionOvertaken.quiet = true ∧
      ¬∀ k ∈ evictionOvertaken.space.live, ∀ l ∈ evictionOvertaken.space.live,
        evictionOvertaken.space.Copies k l → k = l := by
  refine ⟨reachable_follow rfl _, by decide +kernel, fun one => ?_⟩
  have same := one 1 (by decide +kernel) 2 (by decide +kernel)
    ⟨by decide +kernel, 7, by decide +kernel, by decide +kernel⟩
  cases same

end System
end LockManager
