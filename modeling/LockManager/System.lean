import LockManager.Task

set_option autoImplicit false

/-!
A namespace with operations in progress. A task takes what it needs for its next stage one primitive
at a time, and carries the stage out once it has all of it. Which task goes on is left open.
-/

namespace LockManager

abbrev TaskId := Nat

structure System where
  space : Namespace
  tasks : Arena Task := {}

namespace System

def role (s : System) : Role := s.space.config.role

def task (s : System) (i : TaskId) : Task := s.tasks.get i

def holds (s : System) (i : TaskId) : List Primitive := (s.task i).holds s.role

def wants (s : System) (i : TaskId) : Option Primitive := (s.task i).wants s.role

def taskIds (s : System) : List TaskId := List.range s.tasks.size

/-- No task holds `p`. -/
def free (s : System) (p : Primitive) : Bool := s.taskIds.all fun i => p ∉ s.holds i

/-- Begins an operation as a task of its own. -/
def start (s : System) (op : Operation) : System :=
  let (t, ns) := Task.start s.space op
  { space := ns, tasks := s.tasks.alloc t }

/-- Begins to take the queues of a lock's resource and to keep them. -/
def startHold (s : System) (l : LockId) (role : Role) : System :=
  { s with tasks := s.tasks.alloc { todo := [.hold l role] } }

/-- Gives task `i` the primitive that it wants. -/
def hand (s : System) (i : TaskId) (p : Primitive) : System :=
  { s with tasks := s.tasks.modify i (·.taking s.space p) }

/-- Task `i` takes what it wants, if it is free. -/
def take? (s : System) (i : TaskId) : Option System :=
  match s.wants i with
  | some p => if s.free p then some (s.hand i p) else none
  | none => none

/-- Task `i` has what its next stage needs, with the queues of the resource returned if it needs
any. -/
def prepared? (s : System) (i : TaskId) : Option ResourceId :=
  match (s.task i).need s.role, (s.task i).place with
  | .nothing, _ => some 0
  | .guard .., .inside r | .queues _, .inside r | .binding _, .bound r => some r
  | .retirement l, _ => if (s.space.lock l).retired then some 0 else none
  | .idleness, _ => if s.space.idle then some 0 else none
  | _, _ => none

/-- Task `i` carries out its next stage and lets go of what it held for it. -/
def carryOut? (s : System) (i : TaskId) : Option System :=
  match (s.task i).todo, s.prepared? i with
  | stage :: rest, some r =>
    let done := stage.carryOut s.space r
    some
      { space := done.space
        tasks := s.tasks.modify i fun t =>
          { todo := done.next ++ rest, place := .outside, outcome := done.outcome <|> t.outcome } }
  | _, _ => none

end System

end LockManager
