import LockManager.Operation

set_option autoImplicit false

/-!
What a namespace shows of its locks and resources.
-/

namespace LockManager

structure LockView where
  handle : Handle
  owner : Owner
  resource : Key
  state : LockState
  requestedMode : Mode
  grantedMode : Option Mode
  policy : Policy
  seq : Nat
  everGranted : Bool
  blockingSent : Bool
  history : List LockState
  deriving DecidableEq, Repr

/-- Cookies and modes in the order of the queues. -/
structure ResourceView where
  key : Key
  refs : Nat
  granted : List (UInt64 × Mode)
  converting : List (UInt64 × Mode)
  waiting : List (UInt64 × Mode)
  deriving DecidableEq, Repr

def Lock.view (l : Lock) : LockView :=
  { handle := l.handle
    owner := l.claim.owner
    resource := l.key
    state := l.state
    requestedMode := l.requestedMode
    grantedMode := l.grantedMode
    policy := l.claim.policy
    seq := l.claim.seq
    everGranted := l.everGranted
    blockingSent := l.blockingSent
    history := l.history.states }

def Entry.view (e : Entry) : UInt64 × Mode := (e.claim.handle.cookie, e.mode)

def Resource.view (r : Resource) : ResourceView :=
  { key := r.key
    refs := r.refs
    granted := r.queues.granted.map Entry.view
    converting := r.queues.converting.map Entry.view
    waiting := r.queues.waiting.map Entry.view }

namespace Namespace

def lockView (ns : Namespace) (h : Handle) : Except LockError LockView :=
  (ns.lookup h).map fun l => (ns.lock l).view

/-- Live locks in order of arrival. -/
def lockViews (ns : Namespace) : List LockView :=
  (ns.live.mergeSort (· ≤ ·)).map fun l => (ns.lock l).view

/-- Indexed resources in order of their keys. -/
def resourceViews (ns : Namespace) : List ResourceView :=
  ns.indexed.map fun r => (ns.resource r).view

end Namespace

end LockManager
