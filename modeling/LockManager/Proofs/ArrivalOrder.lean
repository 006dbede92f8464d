import LockManager.Proofs.Alone
import LockManager.Proofs.CancelPriority
import LockManager.Proofs.Ledger.Turns

set_option autoImplicit false

/-!
Whether locks are granted in the order in which they came. A lock keeps its place by its arrival,
whenever it is brought to the queues, and whoever is granted leaves no earlier waiter for the same
behind but one whose cancel has begun.
-/

namespace LockManager

open Ledger (Shift Thins)

namespace System

variable {s : System} {i : TaskId}

/-! ### One operation at a time -/

/-- The operation has been begun in `s` and has come to its end in `t` while nothing else happened,
and one of its moves has led from `u` to `v`. -/
def Leads (s : System) (op : Operation) (u v t : System) : Prop :=
  t.quiet = true ∧ ∃ (before : List Move) (m : Move) (after : List Move),
    (∀ m' ∈ before ++ m :: after, m'.By s.tasks.size) ∧
      (s.start op).follow before = u ∧ u.move m = v ∧ v.follow after = t

/-- The task brings nobody to the queues any more, but perhaps by its next stage. -/
def Trails (s : System) (i : TaskId) : Prop :=
  ∀ stage ∈ (s.task i).todo.tail, stage.brings? = none

/-- The task brings nobody to the queues any more. -/
def Spent (s : System) (i : TaskId) : Prop := ∀ stage ∈ (s.task i).todo, stage.brings? = none

theorem Spent.trails (spent : Spent s i) : Trails s i :=
  fun stage inside => spent stage (List.mem_of_mem_tail inside)

end System

namespace Stage

/-- Whatever a stage leaves to be done brings nobody to the queues. -/
theorem brings?_next (ns : Namespace) (r : ResourceId) (stage : Stage) :
    ∀ next ∈ (stage.carryOut ns r).next, next.brings? = none := by
  intro next inside
  cases yields_of_mem_next inside <;> rfl

end Stage

theorem Stage.brings?_marks (ls : List LockId) {last : Stage} (away : last.brings? = none) :
    ∀ stage ∈ ls.map (Stage.mark · true) ++ [last], stage.brings? = none := by
  intro stage inside
  rcases List.mem_append.mp inside with marks | final
  · obtain ⟨l, -, rfl⟩ := List.mem_map.mp marks
    rfl
  · rw [List.mem_singleton.mp final]
    exact away

/-- An operation brings nobody to the queues but perhaps by its first stage. -/
theorem Task.brings?_start (ns : Namespace) (op : Operation) :
    ∀ stage ∈ (start ns op).1.todo.tail, stage.brings? = none := by
  cases op with
  | evict owner =>
    intro stage inside
    exact Stage.brings?_marks _ rfl stage (List.mem_of_mem_tail inside)
  | shutdown =>
    simp only [start]
    split
    · simp [answered]
    · intro stage inside
      exact Stage.brings?_marks _ rfl stage (List.mem_of_mem_tail inside)
  | _ =>
    simp only [start]
    repeat' split
    all_goals simp [answered]

namespace System

variable {config : Config} {s t u v : System} {i : TaskId} {l : LockId} {m : Move}

/-- Once a move of the task has done something, the task brings nobody to the queues any more. -/
theorem Trails.move (trails : Trails s i) (mine : m.By i) :
    (s.move m).space = s.space ∧ Trails (s.move m) i ∨ Spent (s.move m) i := by
  rcases s.move_cases mine with ⟨stage, rest, q, todo, -, -, left, -⟩ | ⟨space, left, -⟩
  · refine .inr fun later inside => ?_
    rw [left] at inside
    rcases List.mem_append.mp inside with next | rest
    · exact Stage.brings?_next _ _ _ later next
    · apply trails later
      rw [todo]
      exact rest
  · exact .inl ⟨space, fun stage inside => trails stage (left ▸ inside)⟩

theorem Trails.follow (trails : Trails s i) {moves : List Move} (mine : ∀ m ∈ moves, m.By i) :
    Trails (s.follow moves) i := by
  unfold System.follow
  induction moves generalizing s with
  | nil => exact trails
  | cons m moves ih =>
    have on : Trails (s.move m) i := by
      rcases trails.move (mine m List.mem_cons_self) with ⟨-, still⟩ | spent
      · exact still
      · exact spent.trails
    exact ih on fun m later => mine m (List.mem_cons_of_mem _ later)

/-- Whoever waits after a move of such a task has waited before. -/
theorem Spent.move (sound : s.Sound) (spent : Spent s i) (mine : m.By i) :
    Spent (s.move m) i ∧ Thins s.space.ledger (s.move m).space.ledger := by
  rcases s.move_cases mine with ⟨stage, rest, q, todo, prepared, space, left, -⟩ |
    ⟨space, left, -⟩
  · have away : stage.brings? = none := spent stage (todo ▸ List.mem_cons_self)
    refine ⟨fun later inside => ?_, ?_⟩
    · rw [left] at inside
      rcases List.mem_append.mp inside with next | after
      · exact Stage.brings?_next _ _ _ later next
      · exact spent later (todo ▸ List.mem_cons_of_mem _ after)
    · rw [space]
      exact (away ▸ sound.shift_carryOut todo prepared).thins
  · exact ⟨fun stage inside => spent stage (left ▸ inside), space ▸ .refl _⟩

theorem Spent.follow (sound : s.Sound) (spent : Spent s i) {moves : List Move}
    (mine : ∀ m ∈ moves, m.By i) : Thins s.space.ledger (s.follow moves).space.ledger := by
  unfold System.follow
  induction moves generalizing s with
  | nil => exact .refl _
  | cons m moves ih =>
    obtain ⟨still, thins⟩ := spent.move sound (mine m List.mem_cons_self)
    exact thins.trans (ih (sound.reaches (s.reaches_move m)) still fun m later =>
      mine m (List.mem_cons_of_mem _ later))

/-! ### Grants -/

/-- A lock that waited, or had not come to the queues yet, has been granted. -/
structure Grants (s t : System) (l : LockId) : Prop where
  before : (s.space.lock l).state = .new ∨ (s.space.lock l).state = .enqueued ∨
    (s.space.lock l).state = .waiting
  after : (t.space.lock l).state = .granted

/-- The waiters of the resource that the lock `l` is bound to. -/
def queueOf (s : System) (l : LockId) : List Entry :=
  (s.space.resource (s.space.lock l).resource).queues.waiting

theorem Grants.served (grants : Grants s t l) (sound : s.Sound) (sound' : t.Sound) :
    s.space.ledger.Served t.space.ledger l := by
  constructor
  · by_cases known : l < s.space.locks.size
    · have own := sound.space.ledger.coherent.seated l known
      rcases grants.before with new | enqueued | waits
      · rw [Lock.Seated, show (s.space.ledger.lock l).state = .new from new] at own
        exact own.of_new.1
      · rw [Lock.Seated, show (s.space.ledger.lock l).state = .enqueued from enqueued] at own
        exact own.of_enqueued.1
      · rw [Lock.Seated, show (s.space.ledger.lock l).state = .waiting from waits] at own
        exact own.of_state_waiting.1
    · exact congrArg Lock.grantedMode (congrArg Lock.outline (Namespace.lock_beyond known))
  · have known : l < t.space.locks.size := by
      by_contra beyond
      have state := grants.after
      rw [Namespace.lock_beyond beyond] at state
      cases state
    exact sound'.space.ledger.coherent.held_of_granted known grants.after

/-- Right after a lock has been granted, an earlier waiter for the same is on its way out. -/
theorem Reachable.leaves_of_grants (reachable : Reachable config s) (step : Step s t)
    (grants : Grants s t l) {e : Entry} (waits : e ∈ t.queueOf l)
    (precedes : t.space.ledger.Precedes e l) : (t.space.lock e.claim.id).state.leaving = true := by
  have sound := reachable.sound
  obtain ⟨brought, shift⟩ := sound.shift step
  exact shift.inTurn sound.space.ledger.coherent l (grants.served sound (sound.step step)) e waits
    precedes

/-- What can be done at its turn is a step. -/
theorem step_move (s : System) (m : Move) : s.move m = s ∨ Step s (s.move m) := by
  cases m with
  | start op => exact .inr (.start s op)
  | take i =>
    simp only [move]
    cases taken : s.take? i with
    | none => exact .inl rfl
    | some t => exact .inr (.take i taken)
  | carryOut i =>
    simp only [move]
    cases done : s.carryOut? i with
    | none => exact .inl rfl
    | some t => exact .inr (.carryOut i done)

theorem not_grants_self (s : System) (l : LockId) : ¬Grants s s l := by
  rintro ⟨before, after⟩
  rw [after] at before
  simp at before

/-- Whenever a lock is granted that waited or had not come to the queues, a lock that arrived earlier,
wants the same mode and overlaps it is left in the waiting queue only if its cancel has been recorded;
and if no other operation is in progress, none is left after the operation. -/
theorem granted_in_order (reachable : Reachable config s) :
    (∀ t l, Step s t → Grants s t l → ∀ e ∈ t.queueOf l, t.space.ledger.Precedes e l →
      ∀ u, Reaches t u → (u.space.lock e.claim.id).state.leaving = true) ∧
    ∀ op u v t l, s.Leads op u v t → Grants u v l →
      ∀ e ∈ (t.space.resource (v.space.lock l).resource).queues.waiting,
        ¬v.space.ledger.Precedes e l := by
  constructor
  · intro t l step grants e waits precedes u run
    have gone := reachable.leaves_of_grants step grants waits precedes
    exact (reachable.reaches (.single step)).leaving_of_reaches gone run
  · rintro op u v t l ⟨ends, before, m, after, mine, rfl, rfl, rfl⟩ grants e waits precedes
    have reached : Reachable config ((s.start op).follow before) :=
      (reachable.reaches (.single (.start s op))).reaches (reaches_follow (s.start op) before)
    have now : m.By s.tasks.size := mine m (by simp)
    have step : Step _ (((s.start op).follow before).move m) :=
      (step_move _ m).resolve_left fun same => not_grants_self _ l (same ▸ grants)
    have on := reached.reaches (.single step)
    have trails : Trails ((s.start op).follow before) s.tasks.size := by
      apply Trails.follow
      · intro stage inside
        rw [task_start] at inside
        exact Task.brings?_start s.space op stage inside
      · exact fun m' member => mine m' (List.mem_append_left _ member)
    have spent : Spent (((s.start op).follow before).move m) s.tasks.size := by
      refine (trails.move now).resolve_left fun still => ?_
      have none := grants.before
      rw [← still.1, grants.after] at none
      simp at none
    -- Whoever waits in the end did so right after the grant, and then it is on its way out.
    have thins := spent.follow on.sound fun m' (member : m' ∈ after) =>
      mine m' (List.mem_append_right _ (List.mem_cons_of_mem _ member))
    have gone := reached.leaves_of_grants step grants (thins _ waits) precedes
    have ended := on.reaches (reaches_follow _ after)
    have stays := ended.sound.stays ends (Queues.mem_entries.mpr (.inr waits))
    rw [on.leaving_of_reaches gone (reaches_follow _ after)] at stays
    cases stays

/-- Two readers wait for a writer. -/
def readersWaiting : System :=
  (fresh {}).follow
    (Move.through (.enqueue { key := ⟨1, 0⟩, mode := .exclusive, owner := ⟨"a"⟩ }) 0 ++
      Move.through (.enqueue { key := ⟨1, 0⟩, mode := .protectedRead, owner := ⟨"b"⟩ }) 1 ++
      Move.through (.enqueue { key := ⟨1, 0⟩, mode := .protectedRead, owner := ⟨"c"⟩ }) 2)

/-- The writer is about to go. -/
def writerLeaving : System :=
  (readersWaiting.start (.cancel ⟨0, 1⟩)).follow [.carryOut 3, .take 3, .take 3]

/-- The first of the readers is to go. -/
def readerLeaving : System := readersWaiting.follow [.start (.cancel ⟨1, 1⟩), .carryOut 3]

/-- The writer is about to go before it. -/
def bothLeaving : System :=
  (readerLeaving.start (.cancel ⟨0, 1⟩)).follow [.carryOut 4, .take 4, .take 4]

theorem reachable_readersWaiting : Reachable {} readersWaiting := reachable_follow rfl _

theorem reachable_readerLeaving : Reachable {} readerLeaving :=
  Reachable.reaches reachable_readersWaiting (readersWaiting.reaches_follow _)

theorem reachable_bothLeaving : Reachable {} bothLeaving :=
  (Reachable.reaches reachable_readerLeaving (.single (.start _ _))).reaches (reaches_follow _ _)

/-- When the writer goes, the second reader is granted past the first one if that is on its way out,
and in turn otherwise. -/
theorem granted_in_order_readers :
    (Grants bothLeaving (bothLeaving.move (.carryOut 4)) 2 ∧
      ∃ e ∈ (bothLeaving.move (.carryOut 4)).queueOf 2,
        (bothLeaving.move (.carryOut 4)).space.ledger.Precedes e 2 ∧
        ((bothLeaving.move (.carryOut 4)).space.lock e.claim.id).state.leaving = true) ∧
    Grants writerLeaving (writerLeaving.move (.carryOut 3)) 2 ∧
      ∀ e ∈ (writerLeaving.move (.carryOut 3)).queueOf 2,
        ¬(writerLeaving.move (.carryOut 3)).space.ledger.Precedes e 2 := by
  constructor
  · have grants : Grants bothLeaving (bothLeaving.move (.carryOut 4)) 2 :=
      ⟨by decide +kernel, by decide +kernel⟩
    have step : Step bothLeaving (bothLeaving.move (.carryOut 4)) :=
      (step_move _ _).resolve_left fun same => not_grants_self _ 2 (same ▸ grants)
    obtain ⟨e, waits, precedes⟩ : ∃ e ∈ (bothLeaving.move (.carryOut 4)).queueOf 2,
        (bothLeaving.move (.carryOut 4)).space.ledger.Precedes e 2 := by
      decide +kernel
    exact ⟨grants, e, waits, precedes,
      (granted_in_order reachable_bothLeaving).1 _ 2 step grants e waits precedes _ .refl⟩
  · have grants : Grants writerLeaving (writerLeaving.move (.carryOut 3)) 2 :=
      ⟨by decide +kernel, by decide +kernel⟩
    have third : readersWaiting.tasks.size = 3 := by decide +kernel
    have leads : readersWaiting.Leads (.cancel ⟨0, 1⟩) writerLeaving
        (writerLeaving.move (.carryOut 3)) (writerLeaving.move (.carryOut 3)) := by
      refine ⟨by decide +kernel, [.carryOut 3, .take 3, .take 3], .carryOut 3, [], ?_, rfl, rfl,
        List.foldl_nil⟩
      simp [third, Move.By]
    exact ⟨grants, (granted_in_order reachable_readersWaiting).2 _ _ _ _ 2 leads grants⟩

/-- While the first reader is on its way out, a cancel of the writer grants the second one, and the
first one is still in the waiting queue when that cancel has come to its end. -/
theorem granted_past_earlier :
    ∃ s t : System, Reachable {} s ∧ Reaches (s.start (.cancel ⟨0, 1⟩)) t ∧
      (t.task s.tasks.size).finished = true ∧ (s.space.lock 2).state = .waiting ∧
      (t.space.lock 2).state = .granted ∧
      ∃ e ∈ t.queueOf 2, t.space.ledger.Precedes e 2 := by
  have run := (reaches_follow (readerLeaving.start (.cancel ⟨0, 1⟩))
    [.carryOut 4, .take 4, .take 4]).trans (bothLeaving.reaches_move (.carryOut 4))
  exact ⟨readerLeaving, _, reachable_readerLeaving, run, by decide +kernel, by decide +kernel,
    by decide +kernel, by decide +kernel⟩

end System
end LockManager
