import LockManager.Handle
import LockManager.LockState

set_option autoImplicit false

/-!
Why a request to the lock manager is refused, and the text that says so.
-/

namespace LockManager

/-- Identity of the connection that owns a lock. -/
structure Owner where
  name : String
  deriving DecidableEq, Repr, Inhabited

/-- Requests that a lock can be in the wrong state for. -/
inductive Attempt where
  | enqueue
  | convert
  | rebind
  deriving DecidableEq, Repr

def Attempt.name : Attempt → String
  | .enqueue => "enqueue"
  | .convert => "convert"
  | .rebind => "rebind"

inductive LockError where
  | invalidHandle (handle : Handle)
  | shuttingDown (space : String)
  | protocolViolation (handle : Handle) (state : LockState) (attempt : Attempt)
  | notOwner (handle : Handle) (owner : Owner)
  | invalidRequest (reason : String)
  | transport (reason : String)
  | codec (reason : String)
  | badConfig (reason : String)
  deriving DecidableEq, Repr

namespace LockError

def message : LockError → String
  | .invalidHandle h => "Invalid lock handle: " ++ h.display
  | .shuttingDown space => "Namespace shutting down: " ++ space
  | .protocolViolation h state attempt =>
    "Protocol violation: cannot " ++ attempt.name ++ " lock " ++ h.display ++ " in state " ++ state.name
  | .notOwner h owner => "Lock " ++ h.display ++ " is not owned by " ++ owner.name
  | .invalidRequest reason => "Invalid request: " ++ reason
  | .transport reason => "Transport error: " ++ reason
  | .codec reason => "Codec error: " ++ reason
  | .badConfig reason => "Configuration error: " ++ reason

end LockError

/-- The classes of refusal that peers are told apart by. -/
inductive ErrorCode where
  | invalidHandle
  | shuttingDown
  | protocolViolation
  | notOwner
  | invalidRequest
  | codec
  | internal
  deriving DecidableEq, Repr

namespace ErrorCode

def all : List ErrorCode :=
  [.invalidHandle, .shuttingDown, .protocolViolation, .notOwner, .invalidRequest, .codec, .internal]

def name : ErrorCode → String
  | .invalidHandle => "invalid_handle"
  | .shuttingDown => "shutting_down"
  | .protocolViolation => "protocol_violation"
  | .notOwner => "not_owner"
  | .invalidRequest => "invalid_request"
  | .codec => "codec"
  | .internal => "internal"

/-- The name as it stands in the text of a rejection. -/
def title : ErrorCode → String
  | .invalidHandle => "InvalidHandle"
  | .shuttingDown => "ShuttingDown"
  | .protocolViolation => "ProtocolViolation"
  | .notOwner => "NotOwner"
  | .invalidRequest => "InvalidRequest"
  | .codec => "Codec"
  | .internal => "Internal"

end ErrorCode

def LockError.code : LockError → ErrorCode
  | .invalidHandle _ => .invalidHandle
  | .shuttingDown _ => .shuttingDown
  | .protocolViolation .. => .protocolViolation
  | .notOwner .. => .notOwner
  | .invalidRequest _ => .invalidRequest
  | .codec _ => .codec
  | .transport _ | .badConfig _ => .internal

end LockManager
