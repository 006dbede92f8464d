import LockManager.Error
import LockManager.Key
import LockManager.Mode

set_option autoImplicit false

/-!
Messages to the owner of a lock: give way, it is granted, or tell what you have cached.
-/

namespace LockManager

inductive NoticeKind where
  | blocking
  | completion
  | glimpse
  deriving DecidableEq, Repr

namespace NoticeKind

def all : List NoticeKind := [.blocking, .completion, .glimpse]

def name : NoticeKind → String
  | .blocking => "blocking"
  | .completion => "completion"
  | .glimpse => "glimpse"

end NoticeKind

/-- The party whose request caused a message. -/
structure Conflict where
  handle : Option Handle
  owner : Owner
  mode : Option Mode
  deriving DecidableEq, Repr

structure Notification where
  kind : NoticeKind
  /-- The lock whose owner is told. -/
  handle : Handle
  resource : Key
  /-- The mode that lock holds. -/
  mode : Mode
  conflicting : Option Conflict
  deriving DecidableEq, Repr

/-- What keeps a message from its owner. -/
inductive Obstacle where
  | unreachable
  | partitioned
  | noRoute
  deriving DecidableEq, Repr

def Obstacle.error (owner : Owner) : Obstacle → LockError
  | .unreachable => .transport (owner.name ++ " unreachable")
  | .partitioned => .transport (owner.name ++ " is partitioned")
  | .noRoute => .transport ("no route to " ++ owner.name)

/-- Why an owner is reported as unresponsive. -/
inductive Grievance where
  | undelivered (handle : Handle) (error : String)
  | overdue (handle : Handle) (waited : Nat)
  deriving DecidableEq, Repr

def Grievance.ofObstacle (handle : Handle) (owner : Owner) (o : Obstacle) : Grievance :=
  .undelivered handle (o.error owner).message

def Grievance.handle : Grievance → Handle
  | .undelivered handle _ => handle
  | .overdue handle _ => handle

end LockManager
