import LockManager.Config

set_option autoImplicit false

/-!
Settings taken from environment variables. A variable that is not set leaves its setting at the
default, and a set one must be readable.
-/

namespace LockManager

/-- Reads ASCII digits after an optional plus sign, as a number below `bound`. -/
def readNumber? (bound : Nat) (s : String) : Option Nat :=
  let digits := if s.toList.head? = some '+' then s.toList.tail else s.toList
  if digits.isEmpty || !digits.all Char.isDigit then none
  else
    let n := digits.foldl (fun n c => 10 * n + (c.toNat - '0'.toNat)) 0
    if n < bound then some n else none

/-- Values by variable, without the common start of the variables' names. -/
abbrev Environment := List (String × String)

namespace Environment

def start : String := "CLUSTERLOCK_"

def number (env : Environment) (name : String) (bound default : Nat) : Except Config.Fault Nat :=
  match env.lookup name with
  | none => .ok default
  | some text =>
    match readNumber? bound text with
    | some n => .ok n
    | none => .error (.badVariable (start ++ name) text)

def role (env : Environment) (default : Role) : Except Config.Fault Role :=
  match env.lookup "ROLE" with
  | none => .ok default
  | some text => Role.parse text

/-- The word `none`, in either ASCII case, lifts the limit. -/
def bypassLimit (env : Environment) (default : Option UInt32) :
    Except Config.Fault (Option UInt32) :=
  match env.lookup "BYPASS_LIMIT" with
  | none => .ok default
  | some text =>
    if text.toLower = "none" then .ok none
    else
      match readNumber? UInt32.size text with
      | some n => .ok (some (UInt32.ofNat n))
      | none => .error (.badVariable (start ++ "BYPASS_LIMIT") text)

/-- The first setting that cannot be read is the one reported. -/
def config (env : Environment) : Except Config.Fault Config := do
  let base : Config := {}
  let role ← env.role base.role
  let workers ← env.number "DISPATCH_WORKERS" UInt64.size base.workers
  let bypassLimit ← env.bypassLimit base.bypassLimit
  let blockingTimeout ← env.number "BLOCKING_TIMEOUT_MS" UInt64.size base.blockingTimeout
  let sweepInterval ← env.number "SWEEP_INTERVAL_MS" UInt64.size base.sweepInterval
  Config.checked
    { base with
      name := (env.lookup "NAMESPACE").getD base.name
      role, workers, bypassLimit, blockingTimeout, sweepInterval }

end Environment

end LockManager
