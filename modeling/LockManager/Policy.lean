import LockManager.Mode

set_option autoImplicit false

/-!
The part of a resource that a lock covers. Two locks conflict when their modes are incompatible and
their parts meet. Parts of different kinds always meet.
-/

namespace LockManager

inductive Policy where
  | plain
  | extent (first last : UInt64)
  | inodeBits (bits : UInt64)
  deriving DecidableEq, Repr, Inhabited

namespace Policy

/-- Every byte of a file. -/
def wholeFile : Policy := .extent 0 0xffffffffffffffff

inductive Fault where
  | reversed (first last : UInt64)
  | noBits
  deriving DecidableEq, Repr

def Fault.message : Fault → String
  | .reversed first last => s!"extent start {first} beyond end {last}"
  | .noBits => "empty inode bits"

/-- Why a part is empty, if it is. -/
def fault? : Policy → Option Fault
  | .plain => none
  | .extent first last => if last < first then some (.reversed first last) else none
  | .inodeBits bits => if bits = 0 then some .noBits else none

def overlaps : Policy → Policy → Bool
  | .extent first last, .extent first' last' => first ≤ last' && first' ≤ last
  | .inodeBits bits, .inodeBits bits' => bits &&& bits' != 0
  | _, _ => true

theorem overlaps_comm (p q : Policy) : p.overlaps q = q.overlaps p := by
  cases p <;> cases q <;> simp [overlaps, Bool.and_comm, UInt64.and_comm]

end Policy

/-- Whether two claims on one resource may not both be granted. -/
def conflicts (m : Mode) (p : Policy) (m' : Mode) (p' : Policy) : Bool :=
  !m.compatible m' && p.overlaps p'

theorem conflicts_comm (m : Mode) (p : Policy) (m' : Mode) (p' : Policy) :
    conflicts m p m' p' = conflicts m' p' m p := by
  simp [conflicts, m.compatible_comm, p.overlaps_comm]

end LockManager
