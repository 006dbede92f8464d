set_option autoImplicit false

/-!
Lock modes, strongest first, and which of them two holders may have at once. Compatibility is a
symmetric relation; `null` goes with every mode and `exclusive` with `null` alone.
-/

namespace LockManager

inductive Mode where
  | exclusive
  | protectedWrite
  | protectedRead
  | concurrentWrite
  | concurrentRead
  | null
  deriving DecidableEq, Repr, Inhabited

namespace Mode

/-- Every mode, strongest first. -/
def all : List Mode :=
  [.exclusive, .protectedWrite, .protectedRead, .concurrentWrite, .concurrentRead, .null]

@[simp] theorem mem_all (m : Mode) : m ∈ all := by cases m <;> decide

/-- Position in `all`. -/
def rank : Mode → Nat
  | .exclusive => 0
  | .protectedWrite => 1
  | .protectedRead => 2
  | .concurrentWrite => 3
  | .concurrentRead => 4
  | .null => 5

def name : Mode → String
  | .exclusive => "EX"
  | .protectedWrite => "PW"
  | .protectedRead => "PR"
  | .concurrentWrite => "CW"
  | .concurrentRead => "CR"
  | .null => "NL"

/-- Names are accepted in either ASCII case. -/
def ofName? (s : String) : Option Mode :=
  all.find? (·.name.toList == s.toList.map Char.toUpper)

/-- Whether two holders may have these modes at once. -/
def compatible : Mode → Mode → Bool
  | .null, _ | _, .null => true
  | .exclusive, _ | _, .exclusive => false
  | .concurrentRead, _ | _, .concurrentRead => true
  | .protectedRead, .protectedRead | .concurrentWrite, .concurrentWrite => true
  | _, _ => false

theorem compatible_comm (a b : Mode) : a.compatible b = b.compatible a := by
  cases a <;> cases b <;> rfl

/-- Modes whose holder may have changed cached data. -/
def writes : Mode → Bool
  | .exclusive | .protectedWrite | .concurrentWrite => true
  | _ => false

end Mode

/-- The text given does not name a mode. -/
structure UnknownMode where
  text : String
  deriving DecidableEq, Repr

def UnknownMode.message (e : UnknownMode) : String := "unknown lock mode: " ++ e.text

end LockManager
