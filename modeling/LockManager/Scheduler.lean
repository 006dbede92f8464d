import LockManager.System.Step

set_option autoImplicit false

/-!
First come, first served. What a task lets go of is handed at once to the task that has waited for it
longest, and tasks that can go on do so in the order in which they became able to.
-/

namespace LockManager

structure Scheduler extends System where
  /-- Tasks that can go on, and among them places kept for operations that have not begun. -/
  ready : List (Option TaskId) := []
  /-- Tasks that cannot, in the order in which they began to wait. -/
  waiting : List TaskId := []
  /-- Tasks that have come to their end, in that order. -/
  ended : List TaskId := []

namespace Scheduler

def setSpace (s : Scheduler) (ns : Namespace) : Scheduler := { s with space := ns }

/-- Nobody holds `p` and nobody waits for it. -/
def untouched (s : Scheduler) (p : Primitive) : Bool :=
  s.free p && s.waiting.all fun i => s.wants i != some p

/-- Hands `p` to the task that has waited for it longest. -/
def handOver (s : Scheduler) (p : Primitive) : Scheduler :=
  match s.waiting.find? fun i => s.wants i == some p with
  | some i =>
    match s.take? i with
    | some system =>
      { s with toSystem := system, ready := s.ready ++ [some i], waiting := s.waiting.erase i }
    | none => s
  | none => s

/-- Wakes the tasks that wait for something that has happened. -/
def wake (s : Scheduler) : Scheduler :=
  let (woken, waiting) := s.waiting.partition fun i => (s.prepared? i).isSome
  { s with ready := s.ready ++ woken.map some, waiting }

/-- Task `i` carries out its next stage; what it lets go of is handed over. -/
def carryOn? (s : Scheduler) (i : TaskId) : Option Scheduler :=
  (s.carryOut? i).map fun system =>
    ((s.holds i).foldl handOver { s with toSystem := system }).wake

/-- The first task that can go on takes one step, or turns out to have to wait. Nothing happens when
it is the turn of a place that was kept. -/
def tick (s : Scheduler) : Scheduler :=
  match s.ready with
  | [] | none :: _ => s
  | some i :: rest =>
    if (s.task i).finished then { s with ready := rest, ended := s.ended ++ [i] }
    else
      match s.wants i with
      | some p =>
        if s.untouched p then { s with toSystem := s.hand i p }
        else { s with ready := rest, waiting := s.waiting ++ [i] }
      | none => (s.carryOn? i).getD { s with ready := rest, waiting := s.waiting ++ [i] }

/-- No stage takes more steps than this, with the stages that it leads to. -/
def stageSteps : Nat := 16

/-- More steps than all tasks together can take. -/
def stepsLeft (s : Scheduler) : Nat :=
  stageSteps * s.taskIds.foldl (fun n i => n + (s.task i).todo.length + 1) 0 + s.ready.length

/-- Lets the tasks go on as far as they can, up to the first place that was kept. -/
def run (s : Scheduler) : Scheduler := Nat.repeat tick s.stepsLeft s.wake

/-- Keeps a place for an operation. -/
def keepPlace (s : Scheduler) : Scheduler := { s with ready := s.ready ++ [none] }

/-- It is the turn of a place that was kept. -/
def placeIsNext (s : Scheduler) : Bool := s.ready.head? = some none

/-- Begins an operation in the place whose turn it is. -/
def beginInPlace (s : Scheduler) (op : Operation) : Scheduler :=
  { s with toSystem := s.start op, ready := some s.tasks.size :: s.ready.tail }

/-- Gives up the place whose turn it is. -/
def giveUpPlace (s : Scheduler) : Scheduler := { s with ready := s.ready.tail }

/-- Takes what task `i` wants, if it is free, apart from the order of the tasks. -/
def seize (s : Scheduler) (i : TaskId) : Scheduler :=
  match s.take? i with
  | some system => { s with toSystem := system }
  | none => s

/-- Begins to take the queues of a lock's resource, and gets as far as knowing the resource. -/
def beginHold (s : Scheduler) (l : LockId) (role : Role) : TaskId × Scheduler :=
  let i := s.tasks.size
  (i, seize { s with toSystem := s.startHold l role } i)

/-- Carries out the stage that task `i` has been kept back from. -/
def letGo (s : Scheduler) (i : TaskId) : Scheduler := (s.carryOn? i).getD s

/-! ### The order is one of those that are possible -/

theorem reaches_handOver (s : Scheduler) (p : Primitive) :
    s.toSystem.Reaches (s.handOver p).toSystem := by
  unfold handOver
  split
  · next i _ =>
    split
    · next taken => exact .single (.take i taken)
    · exact .refl
  · exact .refl

theorem reaches_carryOn {s t : Scheduler} {i : TaskId} (h : s.carryOn? i = some t) :
    s.toSystem.Reaches t.toSystem := by
  obtain ⟨system, done, rfl⟩ := Option.map_eq_some_iff.1 h
  refine (System.Reaches.single (.carryOut i done)).trans ?_
  have hand : ∀ (ps : List Primitive) (u : Scheduler),
      u.toSystem.Reaches (ps.foldl handOver u).toSystem := by
    intro ps
    induction ps with
    | nil => exact fun _ => .refl
    | cons p ps ih => exact fun u => (u.reaches_handOver p).trans (ih (u.handOver p))
  exact hand (s.holds i) { s with toSystem := system }

theorem reaches_tick (s : Scheduler) : s.toSystem.Reaches s.tick.toSystem := by
  unfold tick
  split
  · exact .refl
  · exact .refl
  · next i rest _ =>
    split
    · exact .refl
    · split
      · next p wanted =>
        split
        · next free =>
          simp only [untouched, Bool.and_eq_true] at free
          refine .single (.take i ?_)
          simp [System.take?, wanted, free.1]
        · exact .refl
      · cases h : s.carryOn? i with
        | none => exact .refl
        | some t => exact reaches_carryOn h

theorem reaches_run (s : Scheduler) : s.toSystem.Reaches s.run.toSystem := by
  have ticks : ∀ n, s.toSystem.Reaches (Nat.repeat tick n s.wake).toSystem := by
    intro n
    induction n with
    | zero => exact .refl
    | succ n ih => exact ih.trans (reaches_tick _)
  exact ticks s.stepsLeft

/-- The resource whose queues task `i` holds, if it does. -/
def heldBy? (s : Scheduler) (i : TaskId) : Option ResourceId :=
  match (s.task i).place with
  | .inside r => some r
  | _ => none

end Scheduler

end LockManager
