import LockManager.Control.Packed
import LockManager.Namespace.Views

set_option autoImplicit false

/-!
Administrative commands, packed and unpacked, and what a namespace answers to them.
-/

namespace LockManager

inductive AdminCommand where
  /-- Of one owner, or of all. -/
  | listLocks (owner : Option Owner)
  | listResources
  | forceCancel (handle : Handle)
  | evict (owner : Owner)
  deriving DecidableEq, Repr

namespace AdminCommand

/-- Eight bytes are one buffer of a request. -/
def packHandle (h : Handle) : Packed :=
  { command := .forceCancel
    buffers := [Bytes.ofNat 8 h.cookie.toNat]
    few := by simp [Header.slotCount]
    used := by simp [Bytes.ofNat] }

def toPacked : AdminCommand → Except ControlError Packed
  | .listLocks none => Packed.ofBuffers .listLocks []
  | .listLocks (some owner) => do
    Packed.ofBuffers .listLocks [← Packed.textArgument .listLocks owner.name]
  | .listResources => Packed.ofBuffers .listResources []
  | .forceCancel h => .ok (packHandle h)
  | .evict owner => do Packed.ofBuffers .evict [← Packed.textArgument .evict owner.name]

/-- Refuses a request with more than `limit` arguments. -/
def expectAtMost (p : Packed) (limit : Nat) : Except ControlError Unit :=
  if limit < p.buffers.length then
    .error (.invalidArgument p.command (.tooMany limit p.buffers.length))
  else .ok ()

def ofPacked (p : Packed) : Except ControlError AdminCommand :=
  match p.command with
  | .listLocks => do
    expectAtMost p 1
    return .listLocks ((← p.text 0).map Owner.mk)
  | .listResources => do
    expectAtMost p 0
    return .listResources
  | .forceCancel => do
    expectAtMost p 1
    match ← p.number 0 with
    | some cookie => return .forceCancel (.ofCookie cookie)
    | none => throw (.invalidArgument p.command (.missing "handle"))
  | .evict => do
    expectAtMost p 1
    match ← p.text 0 with
    | some owner =>
      if owner.isEmpty then throw (.invalidArgument p.command (.missing "owner"))
      return .evict ⟨owner⟩
    | none => throw (.invalidArgument p.command (.missing "owner"))

/-- The operation that carries out the command, unless it is answered without one. -/
def operation? : AdminCommand → Option Operation
  | .listLocks _ => none
  | .listResources => some .survey
  | .forceCancel h => some (.cancel h)
  | .evict owner => some (.evict owner)

end AdminCommand

/-- An answer which shows locks as values of type `L`. -/
inductive AdminReply (L : Type) where
  | locks (views : List L)
  | resources (views : List ResourceView)
  | canceled (handle : Handle) (state : LockState)
  | evicted (owner : Owner) (count : Nat)
  | error (message : String)
  deriving DecidableEq, Repr

namespace AdminReply

/-- What the answer of its operation means for a command. -/
def ofAnswer? : AdminCommand → Answer → Option (AdminReply LockView)
  | .listResources, .seen rs => some (.resources (rs.map Resource.view))
  | .forceCancel h, .canceled state => some (.canceled h state)
  | .evict owner, .evicted n => some (.evicted owner n)
  | _, _ => none

end AdminReply

namespace Namespace

def execute (ns : Namespace) : AdminCommand → Except ControlError (AdminReply LockView) × Namespace
  | .listLocks owner =>
    (.ok (.locks (ns.lockViews.filter fun l => owner.all (· = l.owner))), ns)
  | .listResources => (.ok (.resources ns.resourceViews), ns)
  | .forceCancel h =>
    match ns.cancel h with
    | (.ok state, ns) => (.ok (.canceled h state), ns)
    | (.error e, ns) => (.error (.lock e), ns)
  | .evict owner =>
    let (n, ns) := ns.evictOwner owner
    (.ok (.evicted owner n), ns)

/-- Every byte string is answered. -/
def handlePacked (ns : Namespace) (bytes : Bytes) : AdminReply LockView × Namespace :=
  match Packed.unpack bytes >>= AdminCommand.ofPacked with
  | .error e => (.error e.message, ns)
  | .ok command =>
    match ns.execute command with
    | (.ok reply, ns) => (reply, ns)
    | (.error e, ns) => (.error e.message, ns)

end Namespace

end LockManager
