import LockManager.Control.Command
import LockManager.Timestamp.Reader
import LockManager.Wire.Values

set_option autoImplicit false

/-!
The documents that answer administrative requests.
-/

namespace LockManager

namespace CommandKind

def toJson (k : CommandKind) : Json := .text k.name

def ofJson? (stance : Json.Stance) : Json → Option CommandKind := Json.choice? stance all name

end CommandKind

/-- A lock as a document carries it, with the times of its creation and of its last grant. -/
structure LockRecord where
  view : LockView
  createdAt : Timestamp
  grantedAt : Option Timestamp
  deriving DecidableEq, Repr

namespace Timestamp

def toJson (t : Timestamp) : Json := .text t.render

def ofJson? (v : Json) : Option Timestamp := v.text?.bind ofText?

end Timestamp

namespace LockView

/-- With what is known of the times among the fields. -/
def toJsonWith (l : LockView) (times : List (String × Json)) : Json :=
  .record <|
    [("handle", .ofWord l.handle.cookie), ("owner", l.owner.toJson),
      ("resource", l.resource.toJson), ("state", l.state.toJson),
      ("requested_mode", l.requestedMode.toJson),
      ("granted_mode", .ofOption Mode.toJson l.grantedMode), ("policy", l.policy.toJson),
      ("seq", .nat l.seq)]
    ++ times ++
    [("blocking_sent", .bool l.blockingSent), ("history", .list (l.history.map LockState.toJson))]

def toJson (l : LockView) : Json := l.toJsonWith [("granted_at", .bool l.everGranted)]

end LockView

namespace LockRecord

def toJson (r : LockRecord) : Json :=
  r.view.toJsonWith
    [("created_at", r.createdAt.toJson), ("granted_at", .ofOption Timestamp.toJson r.grantedAt)]

def ofJson? (stance : Json.Stance) (v : Json) : Option LockRecord :=
  match v.fields? [{ name := "handle" }, { name := "owner" }, { name := "resource" },
      { name := "state" }, { name := "requested_mode" },
      { name := "granted_mode", presence := .nullable }, { name := "policy" }, { name := "seq" },
      { name := "created_at" }, { name := "granted_at", presence := .nullable },
      { name := "blocking_sent" }, { name := "history" }] with
  | some [some handle, some owner, some resource, some state, some requestedMode, grantedMode,
      some policy, some seq, some createdAt, grantedAt, some blockingSent, some history] => do
    let grantedAt ← Json.optional? Timestamp.ofJson? grantedAt
    return {
      view :=
        { handle := .ofCookie (← handle.word?)
          owner := ← Owner.ofJson? owner
          resource := ← Key.ofJson? resource
          state := ← LockState.ofJson? stance state
          requestedMode := ← Mode.ofJson? stance requestedMode
          grantedMode := ← Json.optional? (Mode.ofJson? stance) grantedMode
          policy := ← Policy.ofJson? stance policy
          seq := ← seq.natural? UInt64.size
          everGranted := grantedAt.isSome
          blockingSent := ← blockingSent.bool?
          history := ← (← history.list?).mapM (LockState.ofJson? stance) }
      createdAt := ← Timestamp.ofJson? createdAt
      grantedAt }
  | _ => none

end LockRecord

namespace AdminReply

def toJson {L : Type} (lock : L → Json) : AdminReply L → Json
  | .locks ls => .record [("result", .text "locks"), ("locks", .list (ls.map lock))]
  | .resources views =>
    .record [("result", .text "resources"), ("resources", .list (views.map ResourceView.toJson))]
  | .canceled handle state =>
    .record
      [("result", .text "canceled"), ("handle", .ofWord handle.cookie), ("state", state.toJson)]
  | .evicted owner count =>
    .record [("result", .text "evicted"), ("owner", owner.toJson), ("locks", .nat count)]
  | .error message => .record [("result", .text "error"), ("message", .text message)]

def ofJson? (stance : Json.Stance) (v : Json) : Option (AdminReply LockRecord) := do
  let (result, rest) ← v.tagged? stance "result"
  match ← result.text? with
  | "locks" =>
    match rest.fields? [{ name := "locks" }] with
    | some [some ls] => return .locks (← (← ls.list?).mapM (LockRecord.ofJson? .ahead))
    | _ => none
  | "resources" =>
    match rest.fields? [{ name := "resources" }] with
    | some [some views] =>
      return .resources (← (← views.list?).mapM (ResourceView.ofJson? .ahead))
    | _ => none
  | "canceled" =>
    match rest.fields? [{ name := "handle" }, { name := "state" }] with
    | some [some handle, some state] =>
      return .canceled (.ofCookie (← handle.word?)) (← LockState.ofJson? .ahead state)
    | _ => none
  | "evicted" =>
    match rest.fields? [{ name := "owner" }, { name := "locks" }] with
    | some [some owner, some count] =>
      return .evicted (← Owner.ofJson? owner) (← count.natural? UInt64.size)
    | _ => none
  | "error" =>
    match rest.fields? [{ name := "message" }] with
    | some [some message] => return .error (← message.text?)
    | _ => none
  | _ => none

end AdminReply

end LockManager
