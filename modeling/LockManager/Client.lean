import LockManager.Wire.Response

set_option autoImplicit false

/-!
A peer that keeps locks of its own in step with those it has on a server. The own lock is made before
the server names the resource and is moved there with the reply. It follows the lock of the server when
a reply says that the server has granted something, or when a completion that says so is read.
-/

namespace LockManager

/-- A lock of the server and the client's own lock that follows it. -/
structure LockPair where
  own : Handle
  remote : Handle
  /-- How the lock of the server stood at first. -/
  state : LockState
  deriving DecidableEq, Repr

inductive ClientError where
  | refused (e : LockError)
  | rejected (code : ErrorCode) (message : String)
  | unexpected (response : Response)
  /-- No message came in time. -/
  | timeout
  | disconnected (owner : Owner)
  deriving DecidableEq, Repr

namespace ClientError

/-- A response of the wrong kind. -/
def ofResponse : Response → ClientError
  | .error code message => .rejected code message
  | response => .unexpected response

def message : ClientError → String
  | .refused e => "Lock manager error: " ++ e.message
  | .rejected code message => "Request rejected (" ++ code.title ++ "): " ++ message
  | .unexpected response => "Unexpected response: " ++ response.toJson.render
  | .timeout => "Timeout waiting for notification"
  | .disconnected owner => "Client disconnected: " ++ owner.name

end ClientError

structure Client where
  owner : Owner
  /-- The client's own locks. -/
  space : Namespace
  /-- For each lock on the server the own lock that follows it. -/
  pairs : Index Handle Handle := {}
  nextSeq : UInt64 := 1
  /-- Messages not yet read, oldest first. -/
  inbox : List Notification := []

namespace Client

def config (owner : Owner) : Config :=
  { name := owner.name ++ "-local", role := .client, sweepInterval := 0 }

theorem config_fault? (owner : Owner) : (config owner).fault? = none := by
  simp [config, Config.fault?]

/-- Nobody is told about the client's own locks. -/
def connect (owner : Owner) : Client :=
  { owner, space := ({ config := config owner } : Namespace).closeDispatcher }

instance : Inhabited Client := ⟨connect default⟩

/-- Where an own lock is bound until the server has named the resource. -/
def unboundKey : Key := { object := 0, sub := 0 }

/-- Takes over what an operation on the own locks has come to. -/
def takeOver {α : Type} (c : Client) (answer : Except LockError α × Namespace) :
    Except ClientError α × Client :=
  (answer.1.mapError .refused, { c with space := answer.2 })

/-- Binds an own lock to the resource under `key` and lets it follow the lock that the server has
answered with. -/
def adopt (c : Client) (own : Handle) (key : Key) (reply : Reply) :
    Except ClientError LockPair × Client :=
  match c.takeOver (c.space.rebind own key) with
  | (.error e, c) => (.error e, c)
  | (.ok (), c) =>
    let paired (c : Client) : Except ClientError LockPair × Client :=
      (.ok { own, remote := reply.handle, state := reply.state },
        { c with pairs := c.pairs.insert reply.handle own })
    if reply.state = .granted then
      match c.takeOver (c.space.enqueueLock own) with
      | (.error e, c) => (.error e, c)
      | (.ok _, c) => paired c
    else paired c

/-- Gives an own lock up after the server has refused to make one. -/
def abandon (c : Client) (own : Handle) (response : Response) :
    Except ClientError LockPair × Client :=
  match c.takeOver (c.space.cancel own) with
  | (.error e, c) => (.error e, c)
  | (.ok _, c) => (.error (.ofResponse response), c)

def enqueue (c : Client) (server : Namespace) (key : Key) (mode : Mode) :
    Except ClientError LockPair × Client × Namespace :=
  let seq := c.nextSeq
  let c := { c with nextSeq := seq + 1 }
  match c.takeOver (c.space.createLock { key := unboundKey, mode, owner := c.owner }) with
  | (.error e, c) => (.error e, c, server)
  | (.ok own, c) =>
    match server.serve c.owner (.enqueue key mode .plain (some seq)) with
    | (.enqueued reply, server) =>
      let (answer, c) := c.adopt own key reply
      (answer, c, server)
    | (response, server) =>
      let (answer, c) := c.abandon own response
      (answer, c, server)

def convert (c : Client) (server : Namespace) (lock : LockPair) (mode : Mode) :
    Except ClientError ConvertStatus × Client × Namespace :=
  match server.serve c.owner (.convert lock.remote mode) with
  | (.converted .granted, server) =>
    match c.takeOver (c.space.convert lock.own mode) with
    | (.error e, c) => (.error e, c, server)
    | (.ok _, c) => (.ok .granted, c, server)
  | (.converted .pending, server) => (.ok .pending, c, server)
  | (response, server) => (.error (.ofResponse response), c, server)

def cancel (c : Client) (server : Namespace) (lock : LockPair) :
    Except ClientError LockState × Client × Namespace :=
  match server.serve c.owner (.cancel lock.remote) with
  | (.canceled state, server) =>
    match c.takeOver (c.space.cancel lock.own) with
    | (.error e, c) => (.error e, c, server)
    | (.ok _, c) => (.ok state, { c with pairs := c.pairs.erase lock.remote }, server)
  | (response, server) => (.error (.ofResponse response), c, server)

/-! ### Messages -/

/-- The own lock that follows the lock under `remote`, while it is live. -/
def follower? (c : Client) (remote : Handle) : Option Lock := do
  let own ← c.pairs.get? remote
  let l ← c.space.handles.get? own
  return c.space.lock l

/-- Carries a completion over to the own lock. -/
def follow (c : Client) (n : Notification) : Except ClientError Unit × Client :=
  match if n.kind = .completion then c.follower? n.handle else none with
  | none => (.ok (), c)
  | some lock =>
    match lock.state with
    | .new =>
      let (answer, c) := c.takeOver (c.space.enqueueLock lock.handle)
      (answer.map fun _ => (), c)
    | .granted =>
      let (answer, c) := c.takeOver (c.space.convert lock.handle n.mode)
      (answer.map fun _ => (), c)
    | _ => (.ok (), c)

/-- Reads the oldest message, if there is one. -/
def read? (c : Client) : Option (Except ClientError Notification × Client) :=
  match c.inbox with
  | [] => none
  | n :: rest =>
    let (answer, c) := { c with inbox := rest }.follow n
    some (answer.map fun _ => n, c)

end Client

end LockManager
