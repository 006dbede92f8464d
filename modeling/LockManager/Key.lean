import LockManager.Hex

set_option autoImplicit false

/-!
Resource keys: two 64-bit numbers, ordered by the first and then by the second.
-/

namespace LockManager

structure Key where
  object : UInt64
  sub : UInt64
  deriving DecidableEq, Repr, Inhabited

namespace Key

def display (k : Key) : String := "[" ++ hex k.object.toNat ++ ":" ++ hex k.sub.toNat ++ "]"

def le (a b : Key) : Bool := a.object < b.object || (a.object == b.object && a.sub ≤ b.sub)

/-- Ascending, each key once. -/
def sortDistinct (ks : List Key) : List Key := (ks.mergeSort le).eraseReps

end Key

end LockManager
