import LockManager.Wire.Request

set_option autoImplicit false

/-!
Answers to the requests of peers, and how a namespace comes to them. A peer may convert and cancel its
own locks only; a stale handle is let through to a cancel, which may be a repeated one.
-/

namespace LockManager

inductive Response where
  | enqueued (reply : Reply)
  | converted (status : ConvertStatus)
  | canceled (state : LockState)
  | glimpsed (queued : UInt64)
  | error (code : ErrorCode) (message : String)
  deriving DecidableEq, Repr

namespace Response

def toJson : Response → Json
  | .enqueued reply =>
    .record
      [("status", .text "enqueued"), ("handle", .ofWord reply.handle.cookie),
        ("state", reply.state.toJson), ("granted_mode", .ofOption Mode.toJson reply.grantedMode)]
  | .converted status => .record [("status", .text "converted"), ("result", status.toJson)]
  | .canceled state => .record [("status", .text "canceled"), ("state", state.toJson)]
  | .glimpsed queued => .record [("status", .text "glimpsed"), ("queued", .ofWord queued)]
  | .error code message =>
    .record [("status", .text "error"), ("code", code.toJson), ("message", .text message)]

def ofJson? (stance : Json.Stance) (v : Json) : Option Response := do
  let (status, rest) ← v.tagged? stance "status"
  match ← status.text? with
  | "enqueued" =>
    match rest.fields? [{ name := "handle" }, { name := "state" },
        { name := "granted_mode", presence := .nullable }] with
    | some [some handle, some state, grantedMode] =>
      return .enqueued {
        handle := .ofCookie (← handle.word?)
        state := ← LockState.ofJson? .ahead state
        grantedMode := ← Json.optional? (Mode.ofJson? .ahead) grantedMode }
    | _ => none
  | "converted" =>
    match rest.fields? [{ name := "result" }] with
    | some [some status] => return .converted (← ConvertStatus.ofJson? .ahead status)
    | _ => none
  | "canceled" =>
    match rest.fields? [{ name := "state" }] with
    | some [some state] => return .canceled (← LockState.ofJson? .ahead state)
    | _ => none
  | "glimpsed" =>
    match rest.fields? [{ name := "queued" }] with
    | some [some queued] => return .glimpsed (← queued.word?)
    | _ => none
  | "error" =>
    match rest.fields? [{ name := "code" }, { name := "message" }] with
    | some [some code, some message] =>
      return .error (← ErrorCode.ofJson? .ahead code) (← message.text?)
    | _ => none
  | _ => none

def encode (r : Response) : Bytes := .ofText r.toJson.render

def decode? (bytes : Bytes) : Option Response := do
  ofJson? (.direct 0) (← Json.ofBytes? bytes)

def ofError (e : LockError) : Response := .error e.code e.message

/-- The answer to a peer, for what a peer may ask for. -/
def ofAnswer? : Answer → Option Response
  | .enqueued reply => some (.enqueued reply)
  | .converted status => some (.converted status)
  | .canceled state => some (.canceled state)
  | .glimpsed queued => some (.glimpsed (.ofNat queued))
  | .created _ | .rebound | .evicted _ | .stopped | .seen _ => none

/-- Bytes that are no request. -/
def undecodable : Response := .ofError (.codec "not a request")

def ofOutcome : Outcome → Response
  | .ok answer => (ofAnswer? answer).getD .undecodable
  | .error e => .ofError e

end Response

namespace Namespace

/-- Refuses a live lock of somebody else. -/
def checkOwner (ns : Namespace) (peer : Owner) (h : Handle) (allowStale : Bool) :
    Except LockError Unit :=
  match ns.lookup h with
  | .ok l => if (ns.lock l).claim.owner = peer then .ok () else .error (.notOwner h peer)
  | .error e => if allowStale then .ok () else .error e

/-- The operation that a request of `peer` asks for. -/
def operationOf (ns : Namespace) (peer : Owner) : Request → Except LockError Operation
  | .enqueue key mode policy clientSeq => .ok (.enqueue { key, mode, policy, owner := peer, clientSeq })
  | .convert h mode => (ns.checkOwner peer h false).map fun _ => .convert h mode
  | .cancel h => (ns.checkOwner peer h true).map fun _ => .cancel h
  | .glimpse key => .ok (.glimpse key peer)

/-- Carries out a request of `peer`. -/
def serve (ns : Namespace) (peer : Owner) (req : Request) : Response × Namespace :=
  match ns.operationOf peer req with
  | .error e => (.ofError e, ns)
  | .ok op =>
    let (outcome, ns) := ns.perform op
    (.ofOutcome outcome, ns)

/-- Every byte string is answered. -/
def handle (ns : Namespace) (peer : Owner) (bytes : Bytes) : Bytes × Namespace :=
  match Request.decode? bytes with
  | none => (Response.undecodable.encode, ns)
  | some req =>
    let (response, ns) := ns.serve peer req
    (response.encode, ns)

end Namespace

end LockManager
