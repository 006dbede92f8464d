import LockManager.Error
import LockManager.Role

set_option autoImplicit false

/-!
Settings of a namespace and what makes them unusable.
-/

namespace LockManager

/-- Times are in milliseconds. -/
structure Config where
  name : String := "default"
  role : Role := .server
  /-- How many notifications may be on their way at once. -/
  workers : Nat := 8
  /-- How often a blocked request may be passed over, if that is limited. -/
  bypassLimit : Option UInt32 := some 16
  /-- How long a holder may take to give way. -/
  blockingTimeout : Nat := 30000
  /-- Period of the search for holders that do not give way; 0 for none. -/
  sweepInterval : Nat := 1000
  initialCapacity : Nat := 1024
  /-- How many states of its own past a lock remembers. -/
  historyDepth : Nat := 16
  deriving DecidableEq, Repr, Inhabited

namespace Config

inductive Fault where
  | noName
  | noWorkers
  | noTimeout
  | noHistory
  | unknownRole (text : String)
  | badVariable (setting : String) (text : String)
  deriving DecidableEq, Repr

def Fault.message : Fault → String
  | .noName => "namespace is required"
  | .noWorkers => "dispatch_workers must be at least 1"
  | .noTimeout => "blocking_timeout_ms must be positive"
  | .noHistory => "history_depth must be at least 1"
  | .unknownRole text => "Invalid role: " ++ text
  | .badVariable name text => "Invalid " ++ name ++ ": " ++ text

/-- The first fault, if there is one. -/
def fault? (c : Config) : Option Fault :=
  if c.name.isEmpty then some .noName
  else if c.workers = 0 then some .noWorkers
  else if c.blockingTimeout = 0 then some .noTimeout
  else if c.historyDepth = 0 then some .noHistory
  else none

def checked (c : Config) : Except Fault Config :=
  match c.fault? with
  | some fault => .error fault
  | none => .ok c

/-- Whether a request passed over `bypassed` times must not be passed over again. -/
def starves (c : Config) (bypassed : Nat) : Bool :=
  match c.bypassLimit with
  | some limit => limit.toNat ≤ bypassed
  | none => false

end Config

def Role.parse (s : String) : Except Config.Fault Role :=
  match Role.ofName? s with
  | some role => .ok role
  | none => .error (.unknownRole s.toLower)

def LockError.ofConfig (fault : Config.Fault) : LockError := .badConfig fault.message

end LockManager
