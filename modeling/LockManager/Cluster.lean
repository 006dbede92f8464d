import LockManager.Client
import LockManager.Control.Command

set_option autoImplicit false

/-!
A server and the clients that are connected to it. A message comes at once to the client that has
connected last as its owner, unless that owner is cut off. The server has its turn when there are
messages to deliver and while a client waits; a look at the holders that comes due just when the
wait is over is left for its next turn.
-/

namespace LockManager

/-- Clients are numbered in the order in which they connected. -/
abbrev ClientId := Nat

structure Cluster where
  server : Namespace
  clients : Arena Client := {}
  partitioned : List Owner := []
  /-- How many messages have come to a client. -/
  delivered : Nat := 0
  reports : List (Owner × Grievance) := []
  /-- A look at the holders has come due and has not been made. -/
  lookDue : Bool := false

namespace Cluster

def start (config : Config) : Except LockError Cluster :=
  (Namespace.create { config with role := .server }).map fun server => { server }

def client (c : Cluster) (i : ClientId) : Client := c.clients.get i

def connect (c : Cluster) (owner : Owner) : ClientId × Cluster :=
  (c.clients.size, { c with clients := c.clients.alloc (.connect owner) })

/-- The client that the messages for `owner` go to. -/
def recipient? (c : Cluster) (owner : Owner) : Option ClientId :=
  (List.range c.clients.size).reverse.find? fun i => (c.client i).owner = owner

/-- No other client has connected as the same owner since. -/
def connected (c : Cluster) (i : ClientId) : Bool := c.recipient? (c.client i).owner = some i

def partition (c : Cluster) (owner : Owner) : Cluster :=
  { c with partitioned := owner :: c.partitioned }

def heal (c : Cluster) (owner : Owner) : Cluster :=
  { c with partitioned := c.partitioned.filter (· ≠ owner) }

/-! ### Messages -/

def route (c : Cluster) (owner : Owner) : Except Obstacle ClientId :=
  if owner ∈ c.partitioned then .error .partitioned
  else
    match c.recipient? owner with
    | some i => .ok i
    | none => .error .noRoute

/-- The transport answers for `d`. -/
def deliver (c : Cluster) (d : Delivery) : Cluster :=
  let lock := c.server.lock d.lock
  let owner := lock.claim.owner
  let c :=
    match c.route owner with
    | .ok i =>
      { c with
        clients := c.clients.modify i fun x => { x with inbox := x.inbox ++ [d.notification] }
        delivered := c.delivered + 1 }
    | .error o => { c with reports := c.reports ++ [(owner, Grievance.ofObstacle lock.handle owner o)] }
  { c with server := c.server.finish d }

/-- Delivers a message that is on its way or else takes up a lock that has some, if there is any. -/
def work? (c : Cluster) : Option Cluster :=
  match c.server.dispatcher.deliveries with
  | d :: _ => some (c.deliver d)
  | [] => c.server.takeUp?.map fun server => { c with server }

/-- Does work until there is none. -/
def workOff : Nat → Cluster → Cluster
  | 0, c => c
  | fuel + 1, c =>
    match c.work? with
    | some c => workOff fuel c
    | none => c

/-- Messages that have not been delivered and locks that have not been taken up. -/
def backlog (c : Cluster) : Nat :=
  c.server.locks.records.foldl (fun n l => n + l.pending.length) 0 +
    c.server.dispatcher.queue.length + c.server.dispatcher.deliveries.length

/-! ### Time -/

/-- Looks for holders that have not given way at time `t`. -/
def sweep (c : Cluster) (t : Nat) : Cluster :=
  let (reports, server) := { c.server with clock := t }.checkTimeouts
  { c with server, reports := c.reports ++ reports }

/-- Makes the look at the holders that is due, if the server still runs. -/
def catchUp (c : Cluster) : Cluster :=
  if c.lookDue && !c.server.stopping then { c.sweep c.server.clock with lookDue := false } else c

/-- Delivers everything that has been sent. Without anything to deliver the server has no turn. -/
def settle (c : Cluster) : Cluster := if c.server.idle then c else workOff (c.backlog + 1) c.catchUp

/-- The times after `first` and up to `last` at which the server looks at the holders. -/
def sweepTimes (config : Config) (first last : Nat) : List Nat :=
  (List.range (last / config.sweepInterval - first / config.sweepInterval)).map fun k =>
    (first / config.sweepInterval + k + 1) * config.sweepInterval

/-- Lets time pass. What is due at its end is left. -/
def pass (c : Cluster) (duration : Nat) : Cluster :=
  if duration = 0 then c
  else
    let c := c.catchUp
    let target := c.server.clock + duration
    let times :=
      if c.server.stopping then [] else sweepTimes c.server.config c.server.clock target
    let c := (times.filter (· < target)).foldl sweep c
    { c with server := { c.server with clock := target }, lookDue := target ∈ times }

/-! ### Clients -/

/-- Client `i` does something with the server. -/
def exchange {α : Type} (c : Cluster) (i : ClientId)
    (f : Client → Namespace → α × Client × Namespace) : α × Cluster :=
  let (a, x, server) := f (c.client i) c.server
  (a, { c with server, clients := c.clients.modify i fun _ => x })

def enqueue (c : Cluster) (i : ClientId) (key : Key) (mode : Mode) :
    Except ClientError LockPair × Cluster :=
  c.exchange i (·.enqueue · key mode)

def convert (c : Cluster) (i : ClientId) (lock : LockPair) (mode : Mode) :
    Except ClientError ConvertStatus × Cluster :=
  c.exchange i (·.convert · lock mode)

def cancel (c : Cluster) (i : ClientId) (lock : LockPair) :
    Except ClientError LockState × Cluster :=
  c.exchange i (·.cancel · lock)

/-- Sends a request on behalf of client `i`. -/
def send (c : Cluster) (i : ClientId) (req : Request) : Response × Cluster :=
  let (response, server) := c.server.serve (c.client i).owner req
  (response, { c with server })

/-- Client `i` reads its next message, and waits for it if there is none. -/
def next (c : Cluster) (i : ClientId) (wait : Nat) : Except ClientError Notification × Cluster :=
  match (c.client i).read? with
  | some (answer, x) => (answer, { c with clients := c.clients.modify i fun _ => x })
  | none =>
    if c.connected i then (.error .timeout, c.pass wait)
    else (.error (.disconnected (c.client i).owner), c)

/-! ### The server -/

def execute (c : Cluster) (command : AdminCommand) :
    Except ControlError (AdminReply LockView) × Cluster :=
  let (reply, server) := c.server.execute command
  (reply, { c with server })

def evict (c : Cluster) (owner : Owner) : Nat × Cluster :=
  let (n, server) := c.server.evictOwner owner
  (n, { c with server })

/-- Cancels everything, waits for the messages on their way and closes the dispatcher. -/
def shutdown (c : Cluster) : Cluster :=
  if c.server.stopping then c
  else
    let c := { c with server := c.server.shutdown }.settle
    { c with server := c.server.closeDispatcher }

/-- What has been reported since the reports were last taken, by handle. -/
def takeReports (c : Cluster) : List (Owner × Grievance) × Cluster :=
  (c.reports.mergeSort fun a b => a.2.handle.cookie ≤ b.2.handle.cookie, { c with reports := [] })

end Cluster

end LockManager
