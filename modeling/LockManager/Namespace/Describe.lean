import LockManager.Namespace.Views
import LockManager.Text.Quoted

set_option autoImplicit false

/-!
Descriptions of locks and resources for someone who looks for a fault.
-/

namespace LockManager

/-- A named list of named parts. -/
def describeParts (name : String) (parts : List (String × String)) : String :=
  name ++ " \x7b " ++ String.intercalate ", " (parts.map fun (k, v) => k ++ ": " ++ v) ++ " \x7d"

def Mode.title : Mode → String
  | .exclusive => "Exclusive"
  | .protectedWrite => "ProtectedWrite"
  | .protectedRead => "ProtectedRead"
  | .concurrentWrite => "ConcurrentWrite"
  | .concurrentRead => "ConcurrentRead"
  | .null => "Null"

def LockState.title : LockState → String
  | .new => "New"
  | .enqueued => "Enqueued"
  | .granted => "Granted"
  | .waiting => "Waiting"
  | .converting => "Converting"
  | .canceling => "Canceling"
  | .canceled => "Canceled"

def Owner.describe (o : Owner) : String := "OwnerId(" ++ Text.quote o.name ++ ")"

def Key.describe (k : Key) : String :=
  describeParts "ResourceKey"
    [("object_id", toString k.object.toNat), ("sub_key", toString k.sub.toNat)]

def Handle.describe (h : Handle) : String :=
  describeParts "LockHandle"
    [("index", toString h.index.toNat), ("generation", toString h.generation.toNat)]

def describeMode : Option Mode → String
  | some m => "Some(" ++ m.title ++ ")"
  | none => "None"

def Lock.describe (l : Lock) : String :=
  describeParts "Lock"
    [("handle", l.handle.describe), ("owner", l.claim.owner.describe),
      ("resource", l.key.describe), ("state", l.state.title),
      ("requested_mode", l.requestedMode.title), ("granted_mode", describeMode l.grantedMode)]

def Resource.describe (r : Resource) : String :=
  describeParts "Resource" [("key", r.key.describe), ("refs", toString r.refs)]

end LockManager
