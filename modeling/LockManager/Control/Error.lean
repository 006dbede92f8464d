import LockManager.Error

set_option autoImplicit false

/-!
Administrative commands by name, and why an administrative request is refused.
-/

namespace LockManager

inductive CommandKind where
  | listLocks
  | listResources
  | forceCancel
  | evict
  deriving DecidableEq, Repr

namespace CommandKind

def all : List CommandKind := [.listLocks, .listResources, .forceCancel, .evict]

def code : CommandKind → UInt32
  | .listLocks => 1
  | .listResources => 2
  | .forceCancel => 3
  | .evict => 4

def ofCode? (code : UInt32) : Option CommandKind := all.find? (·.code = code)

def name : CommandKind → String
  | .listLocks => "list_locks"
  | .listResources => "list_resources"
  | .forceCancel => "force_cancel"
  | .evict => "evict"

end CommandKind

/-- What is wrong with the arguments of a command. -/
inductive ArgumentFault where
  | tooMany (limit count : Nat)
  | missing (what : String)
  | containsNul
  | notEightBytes (slot length : Nat)
  | tooLarge (slot : Nat)
  deriving DecidableEq, Repr

def ArgumentFault.message : ArgumentFault → String
  | .tooMany limit count => s!"expected at most {limit} arguments, got {count}"
  | .missing what => "missing " ++ what
  | .containsNul => "string contains NUL"
  | .notEightBytes slot length => s!"slot {slot} must be 8 bytes, got {length}"
  | .tooLarge slot => s!"inline slot {slot} too large"

inductive ControlError where
  | truncated (needed actual : Nat)
  | badMagic (magic : UInt32)
  | badVersion (version : UInt32)
  | lengthMismatch (declared expected : Nat)
  /-- The slot is used after an empty one. -/
  | hole (slot : Nat)
  | overrun (slot : Nat)
  | missingNul (slot : Nat)
  | interiorNul (slot : Nat)
  | nonZeroPadding (slot : Nat)
  | invalidUtf8 (slot : Nat)
  | unknownCommand (code : UInt32)
  | invalidArgument (command : CommandKind) (fault : ArgumentFault)
  | tooManyBuffers (count : Nat)
  | lock (cause : LockError)
  deriving DecidableEq, Repr

namespace ControlError

def message : ControlError → String
  | .truncated needed actual => s!"Truncated request: need {needed} bytes, got {actual}"
  | .badMagic magic => "Bad magic: " ++ hexWord magic.toNat
  | .badVersion version => s!"Unsupported version: {version}"
  | .lengthMismatch declared expected =>
    s!"Length mismatch: header says {declared}, expected {expected}"
  | .hole slot => s!"Inline slot {slot} used after an empty slot"
  | .overrun slot => s!"Inline slot {slot} runs past the end of the request"
  | .missingNul slot => s!"Inline slot {slot} is not NUL-terminated"
  | .interiorNul slot => s!"Inline slot {slot} contains an interior NUL"
  | .nonZeroPadding slot => s!"Inline slot {slot} has non-zero padding"
  | .invalidUtf8 slot => s!"Inline slot {slot} is not valid UTF-8"
  | .unknownCommand code => s!"Unknown command: {code}"
  | .invalidArgument command fault =>
    "Invalid argument for " ++ command.name ++ ": " ++ fault.message
  | .tooManyBuffers count => s!"Too many inline buffers: {count}"
  | .lock cause => "Lock manager error: " ++ cause.message

end ControlError

end LockManager
