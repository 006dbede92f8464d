import LockManager.Lock

set_option autoImplicit false

/-!
The three queues of a resource: locks granted, granted locks that wait for another mode, and locks
that wait for their first grant. The waiting queue is in order of arrival.
-/

namespace LockManager

/-- A place in a queue. `mode` is the mode held on the granted queue and the mode wanted on the
others. -/
structure Entry where
  claim : Claim
  mode : Mode
  deriving DecidableEq, Repr, Inhabited

/-- Whether the entry stands against another lock's `claim` to `mode`. -/
def Entry.opposes (e : Entry) (claim : Claim) (mode : Mode) : Bool :=
  e.claim.id != claim.id && conflicts e.mode e.claim.policy mode claim.policy

structure Queues where
  granted : List Entry := []
  converting : List Entry := []
  waiting : List Entry := []
  deriving DecidableEq, Repr, Inhabited

namespace Queues

def isEmpty (q : Queues) : Bool :=
  q.granted.isEmpty && q.converting.isEmpty && q.waiting.isEmpty

/-- Waiting locks that arrived before `claim`. -/
def earlier (q : Queues) (claim : Claim) : List Entry :=
  q.waiting.takeWhile (·.claim.id < claim.id)

def addWaiting (q : Queues) (e : Entry) : Queues :=
  { q with
    waiting :=
      q.waiting.takeWhile (·.claim.id ≤ e.claim.id) ++
        e :: q.waiting.dropWhile (·.claim.id ≤ e.claim.id) }

def addConverting (q : Queues) (e : Entry) : Queues := { q with converting := q.converting ++ [e] }

def addGranted (q : Queues) (e : Entry) : Queues := { q with granted := q.granted ++ [e] }

def dropWaiting (q : Queues) (l : LockId) : Queues :=
  { q with waiting := q.waiting.filter (·.claim.id != l) }

def dropConverting (q : Queues) (l : LockId) : Queues :=
  { q with converting := q.converting.filter (·.claim.id != l) }

def setGrantedMode (q : Queues) (l : LockId) (mode : Mode) : Queues :=
  { q with granted := q.granted.map fun e => if e.claim.id = l then { e with mode } else e }

/-- Takes a lock out of every queue. -/
def remove (q : Queues) (l : LockId) : Queues :=
  { granted := q.granted.filter (·.claim.id != l)
    converting := q.converting.filter (·.claim.id != l)
    waiting := q.waiting.filter (·.claim.id != l) }

/-- No two granted locks stand against each other. -/
def pairwiseCompatible (q : Queues) : Bool :=
  go q.granted
where
  go : List Entry → Bool
    | [] => true
    | e :: rest =>
      rest.all (fun e' => !conflicts e.mode e.claim.policy e'.mode e'.claim.policy) && go rest

end Queues

end LockManager
