import LockManager.Notification
import LockManager.Policy

set_option autoImplicit false

/-!
The record of a lock. Its claim is fixed when it is created; the rest follows its life cycle. Records
are numbered in order of arrival.
-/

namespace LockManager

/-- Position of a lock's record. -/
abbrev LockId := Nat

/-- Position of a resource's record. -/
abbrev ResourceId := Nat

structure Claim where
  id : LockId
  handle : Handle
  owner : Owner
  policy : Policy
  /-- The client's own number for the request, by which it is known again. -/
  clientSeq : Option UInt64
  deriving DecidableEq, Repr, Inhabited

/-- Arrival number, from 1. -/
def Claim.seq (c : Claim) : Nat := c.id + 1

structure Lock where
  claim : Claim
  state : LockState := .new
  requestedMode : Mode
  grantedMode : Option Mode := none
  /-- It has been granted at some time. -/
  everGranted : Bool := false
  resource : ResourceId
  /-- Key of `resource`. -/
  key : Key
  /-- Its owner has been asked to give way since the last grant. -/
  blockingSent : Bool := false
  blockingSentAt : Option Nat := none
  /-- Its owner has been reported for not giving way since the last grant. -/
  timeoutReported : Bool := false
  /-- Its owner is told nothing any more. -/
  suppressed : Bool := false
  /-- How often a later request was granted past it. -/
  bypassed : Nat := 0
  /-- Messages not yet handed to the transport, oldest first. -/
  pending : List Notification := []
  /-- It is in the dispatcher's hands. -/
  scheduled : Bool := false
  history : History
  /-- Its cancel is complete. -/
  retired : Bool := false
  deriving Repr, Inhabited

namespace Lock

def handle (l : Lock) : Handle := l.claim.handle

def create (claim : Claim) (mode : Mode) (resource : ResourceId) (key : Key) (depth : Nat) : Lock :=
  { claim, requestedMode := mode, resource, key, history := .start depth }

/-- Takes an edge of the life cycle, if there is one. -/
def advance? (l : Lock) (s : LockState) : Option Lock :=
  if l.state.allows s then some { l with state := s, history := l.history.push s } else none

/-- The greatest count of passes that is kept. -/
def bypassCap : Nat := UInt32.size - 1

def passOver (l : Lock) : Lock := { l with bypassed := min (l.bypassed + 1) bypassCap }

/-- Forgets what belongs to the grant before. -/
def hold (l : Lock) (mode : Mode) : Lock :=
  { l with
    grantedMode := some mode
    everGranted := true
    blockingSent := false
    blockingSentAt := none
    timeoutReported := false
    bypassed := 0 }

def push (l : Lock) (n : Notification) : Lock := { l with pending := l.pending ++ [n] }

def suppress (l : Lock) : Lock := { l with suppressed := true, pending := [] }

/-- How long its owner has been asked to give way at time `now`, if it is to be reported for that. -/
def overdue? (l : Lock) (now timeout : Nat) : Option Nat :=
  if l.state.leaving || l.timeoutReported then none
  else
    match l.blockingSentAt with
    | some sent => if timeout ≤ now - sent then some (now - sent) else none
    | none => none

end Lock

namespace Notification

/-- Tells that the lock holds `mode` now. -/
def completed (l : Lock) (mode : Mode) : Notification :=
  { kind := .completion, handle := l.handle, resource := l.key, mode, conflicting := none }

/-- Asks a lock held in `held` to make room for `waiter` in `mode`. -/
def giveWay (l : Lock) (held : Mode) (waiter : Claim) (mode : Mode) : Notification :=
  { kind := .blocking, handle := l.handle, resource := l.key, mode := held,
    conflicting := some { handle := some waiter.handle, owner := waiter.owner, mode := some mode } }

/-- Asks a lock held in `held` what is cached under it. -/
def peek (l : Lock) (held : Mode) (requester : Owner) : Notification :=
  { kind := .glimpse, handle := l.handle, resource := l.key, mode := held,
    conflicting := some { handle := none, owner := requester, mode := none } }

end Notification

end LockManager
