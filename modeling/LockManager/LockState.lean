set_option autoImplicit false

/-!
The life cycle of a lock. A lock reaches `granted` and `waiting` only through `enqueued`, converts
only while granted, and can begin to cancel from any state but `canceling` and `canceled`.
-/

namespace LockManager

inductive LockState where
  | new
  | enqueued
  | granted
  | waiting
  | converting
  | canceling
  | canceled
  deriving DecidableEq, Repr, Inhabited

namespace LockState

def all : List LockState :=
  [.new, .enqueued, .granted, .waiting, .converting, .canceling, .canceled]

def name : LockState → String
  | .new => "NEW"
  | .enqueued => "ENQUEUED"
  | .granted => "GRANTED"
  | .waiting => "WAITING"
  | .converting => "CONVERTING"
  | .canceling => "CANCELING"
  | .canceled => "CANCELED"

/-- A cancel has begun. -/
def leaving : LockState → Bool
  | .canceling | .canceled => true
  | _ => false

/-- The edges of the life cycle. -/
def allows : LockState → LockState → Bool
  | .new, .enqueued
  | .enqueued, .granted
  | .enqueued, .waiting
  | .waiting, .granted
  | .granted, .converting
  | .converting, .granted
  | .canceling, .canceled => true
  | s, .canceling => !s.leaving
  | _, _ => false

end LockState

/-- The most recent states of a lock, oldest first, at most `depth` of them. -/
structure History where
  depth : Nat
  states : List LockState
  deriving DecidableEq, Repr, Inhabited

namespace History

def start (depth : Nat) : History := ⟨depth, [.new]⟩

def push (h : History) (s : LockState) : History :=
  { h with states := (if h.states.length = h.depth then h.states.drop 1 else h.states) ++ [s] }

end History

end LockManager
