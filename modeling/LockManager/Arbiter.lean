import LockManager.Config
import LockManager.Arena
import LockManager.Queues

set_option autoImplicit false

/-!
Deciding who gets a resource, as done by whoever holds its queues. A claim is grantable when no
granted lock stands against it, no pending conversion that was passed over too often does, and no
earlier waiter holds it back. Whenever a resource changes, pending conversions and then waiters are
looked at again in order, and the holders that still block someone are asked to give way.
-/

namespace LockManager

structure Arbiter where
  config : Config
  now : Nat
  queues : Queues
  locks : Arena Lock
  /-- Locks that have been sent messages, in the order of their first. -/
  touched : List LockId := []

namespace Arbiter

def lock (a : Arbiter) (l : LockId) : Lock := a.locks.get l

def modifyLock (a : Arbiter) (l : LockId) (f : Lock → Lock) : Arbiter :=
  { a with locks := a.locks.modify l f }

def modifyQueues (a : Arbiter) (f : Queues → Queues) : Arbiter := { a with queues := f a.queues }

/-- Has no effect on a suppressed lock. -/
def notify (a : Arbiter) (l : LockId) (n : Notification) : Arbiter :=
  if (a.lock l).suppressed then a
  else
    { a.modifyLock l (·.push n) with
      touched := if l ∈ a.touched then a.touched else a.touched ++ [l] }

/-- The lock of `e` has been passed over too often. -/
def starved (a : Arbiter) (e : Entry) : Bool :=
  let l := a.lock e.claim.id
  !l.state.leaving && a.config.starves l.bypassed

/-- An earlier waiter keeps back whoever wants the same mode, and once it is starved whoever stands
against it. -/
def holdsBack (a : Arbiter) (e : Entry) (claim : Claim) (mode : Mode) : Bool :=
  e.claim.policy.overlaps claim.policy &&
    if e.mode = mode then !(a.lock e.claim.id).state.leaving
    else !e.mode.compatible mode && a.starved e

def opposed (a : Arbiter) (claim : Claim) (mode : Mode) : Bool :=
  a.queues.granted.any (·.opposes claim mode)

def grantable (a : Arbiter) (claim : Claim) (mode : Mode) : Bool :=
  !a.opposed claim mode &&
    !a.queues.converting.any (fun e => e.opposes claim mode && a.starved e) &&
    !(a.queues.earlier claim).any (a.holdsBack · claim mode)

/-- Charges a grant to every pending conversion and earlier waiter that it passes over. -/
def recordBypass (a : Arbiter) (claim : Claim) (mode : Mode) : Arbiter :=
  ((a.queues.converting ++ a.queues.earlier claim).filter (·.opposes claim mode)).foldl
    (fun a e => a.modifyLock e.claim.id Lock.passOver) a

/-- Puts a lock into `GRANTED` with `mode`. Refused once its cancel has begun. -/
def enter? (a : Arbiter) (l : LockId) (mode : Mode) (tell : Bool) : Option Arbiter := do
  let lock ← (a.lock l).advance? .granted
  let a := a.modifyLock l fun _ => lock.hold mode
  return if tell then a.notify l (.completed lock mode) else a

def grant (a : Arbiter) (claim : Claim) (mode : Mode) (tell : Bool) : Arbiter :=
  match a.enter? claim.id mode tell with
  | some a => a.modifyQueues (·.addGranted ⟨claim, mode⟩)
  | none => a

def convert? (a : Arbiter) (claim : Claim) (mode : Mode) (tell : Bool) : Option Arbiter :=
  (a.enter? claim.id mode tell).map (·.modifyQueues (·.setGrantedMode claim.id mode))

/-- Asks the holder `e` to make room for `claim`, unless it has been asked or cannot be told. -/
def ask (a : Arbiter) (claim : Claim) (mode : Mode) (e : Entry) : Arbiter :=
  let holder := a.lock e.claim.id
  if holder.blockingSent || holder.state.leaving || holder.suppressed then a
  else
    (a.notify e.claim.id (.giveWay holder e.mode claim mode)).modifyLock e.claim.id fun l =>
      { l with blockingSent := true, blockingSentAt := some a.now }

def askHolders (a : Arbiter) (claim : Claim) (mode : Mode) : Arbiter :=
  (a.queues.granted.filter (·.opposes claim mode)).foldl (fun a e => a.ask claim mode e) a

/-- Completes the pending conversion `e` if nothing stands against it. -/
def retryConversion (a : Arbiter) (e : Entry) : Arbiter :=
  if (a.lock e.claim.id).state.leaving || a.opposed e.claim e.mode then a
  else
    let a := a.modifyQueues (·.dropConverting e.claim.id)
    (a.convert? e.claim e.mode true).getD a

/-- Grants the waiter `e` if it has become grantable. -/
def retryWaiter (a : Arbiter) (e : Entry) : Arbiter :=
  if (a.lock e.claim.id).state.leaving || !a.grantable e.claim e.mode then a
  else
    ((a.modifyQueues (·.dropWaiting e.claim.id)).recordBypass e.claim e.mode).grant
      e.claim e.mode true

def askFor (a : Arbiter) (e : Entry) : Arbiter :=
  if (a.lock e.claim.id).state.leaving then a else a.askHolders e.claim e.mode

/-- Grants whatever has become grantable, conversions first, then asks who still blocks. -/
def reprocess (a : Arbiter) : Arbiter :=
  let a := a.queues.converting.foldl retryConversion a
  let a := a.queues.waiting.foldl retryWaiter a
  (a.queues.converting ++ a.queues.waiting).foldl askFor a

/-- Grants a lock that has just come to the resource, or lets it wait. -/
def receive (a : Arbiter) (claim : Claim) (mode : Mode) : Arbiter :=
  if a.grantable claim mode then (a.recordBypass claim mode).grant claim mode false
  else
    match (a.lock claim.id).advance? .waiting with
    | some lock =>
      ((a.modifyLock claim.id fun _ => lock).modifyQueues (·.addWaiting ⟨claim, mode⟩)).askHolders
        claim mode
    | none => a

/-- Queues a message to every lock that may have changed cached data, `requester`'s own apart. The
count is that of the messages. -/
def glimpse (a : Arbiter) (requester : Owner) : Arbiter × Nat :=
  (a.queues.granted.filter fun e => e.mode.writes && e.claim.owner != requester).foldl
    (fun (a, n) e =>
      let holder := a.lock e.claim.id
      if holder.state.leaving || holder.suppressed then (a, n)
      else (a.notify e.claim.id (.peek holder e.mode requester), n + 1))
    (a, 0)

end Arbiter

end LockManager
