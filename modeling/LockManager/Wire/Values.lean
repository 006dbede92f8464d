import LockManager.Json.Reader
import LockManager.Json.Shape
import LockManager.Json.Writer
import LockManager.Namespace.Views

set_option autoImplicit false

/-!
How the values of the domain travel as JSON.
-/

namespace LockManager

open Json (Stance)

/-! ### Constants -/

namespace Mode

def toJson (m : Mode) : Json := .text m.name

def ofJson? (stance : Stance) : Json → Option Mode := Json.choice? stance all name

end Mode

namespace LockState

def toJson (s : LockState) : Json := .text s.name

def ofJson? (stance : Stance) : Json → Option LockState := Json.choice? stance all name

end LockState

namespace Role

def toJson (r : Role) : Json := .text r.name

def ofJson? (stance : Stance) : Json → Option Role := Json.choice? stance [server, client] name

end Role

namespace ConvertStatus

def toJson (s : ConvertStatus) : Json := .text s.name

def ofJson? (stance : Stance) : Json → Option ConvertStatus :=
  Json.choice? stance [granted, pending] name

end ConvertStatus

namespace ErrorCode

def toJson (c : ErrorCode) : Json := .text c.name

def ofJson? (stance : Stance) : Json → Option ErrorCode := Json.choice? stance all name

end ErrorCode

namespace NoticeKind

def toJson (k : NoticeKind) : Json := .text k.name

def ofJson? (stance : Stance) : Json → Option NoticeKind := Json.choice? stance all name

end NoticeKind

/-! ### Structures -/

namespace Owner

def toJson (o : Owner) : Json := .text o.name

def ofJson? (v : Json) : Option Owner := v.text?.map Owner.mk

end Owner

namespace Key

def toJson (k : Key) : Json :=
  .record [("object_id", .ofWord k.object), ("sub_key", .ofWord k.sub)]

def ofJson? (v : Json) : Option Key :=
  match v.fields? [{ name := "object_id" }, { name := "sub_key" }] with
  | some [some object, some sub] => return { object := ← object.word?, sub := ← sub.word? }
  | _ => none

end Key

namespace Handle

def toJson (h : Handle) : Json :=
  .record [("index", .nat h.index.toNat), ("generation", .nat h.generation.toNat)]

def ofJson? (v : Json) : Option Handle :=
  match v.fields? [{ name := "index" }, { name := "generation" }] with
  | some [some index, some generation] =>
    return { index := ← index.halfWord?, generation := ← generation.halfWord? }
  | _ => none

end Handle

namespace Policy

def toJson : Policy → Json
  | .plain => .record [("kind", .text "plain")]
  | .extent first last =>
    .record [("kind", .text "extent"), ("start", .ofWord first), ("end", .ofWord last)]
  | .inodeBits bits => .record [("kind", .text "inode_bits"), ("bits", .ofWord bits)]

def kinds : List String := ["plain", "extent", "inode_bits"]

/-- A kind that was read ahead may also be given by its number. -/
def kind? (stance : Stance) : Json → Option String
  | .text s => kinds.find? (· = s)
  | .number n => if stance = .ahead then n.natural?.bind (kinds[·]?) else none
  | _ => none

/-- The plain kind has no content, so that other fields are no concern of it. -/
def ofJson? (stance : Stance) (v : Json) : Option Policy := do
  let (kind, rest) ← v.tagged? stance "kind"
  match ← kind? stance kind with
  | "plain" =>
    match rest with
    | .list (_ :: _) => none
    | _ => some .plain
  | "extent" =>
    match rest.fields? [{ name := "start" }, { name := "end" }] with
    | some [some first, some last] => return .extent (← first.word?) (← last.word?)
    | _ => none
  | _ =>
    match rest.fields? [{ name := "bits" }] with
    | some [some bits] => return .inodeBits (← bits.word?)
    | _ => none

end Policy

namespace Conflict

def toJson (c : Conflict) : Json :=
  .record
    [("handle", .ofOption Handle.toJson c.handle), ("owner", c.owner.toJson),
      ("mode", .ofOption Mode.toJson c.mode)]

def ofJson? (stance : Stance) (v : Json) : Option Conflict :=
  match v.fields? [{ name := "handle", presence := .nullable }, { name := "owner" },
      { name := "mode", presence := .nullable }] with
  | some [handle, some owner, mode] =>
    return {
      handle := ← Json.optional? Handle.ofJson? handle
      owner := ← Owner.ofJson? owner
      mode := ← Json.optional? (Mode.ofJson? stance) mode }
  | _ => none

end Conflict

namespace Notification

def toJson (n : Notification) : Json :=
  .record
    [("kind", n.kind.toJson), ("handle", n.handle.toJson), ("resource", n.resource.toJson),
      ("mode", n.mode.toJson), ("conflicting", .ofOption Conflict.toJson n.conflicting)]

def ofJson? (stance : Stance) (v : Json) : Option Notification :=
  match v.fields? [{ name := "kind" }, { name := "handle" }, { name := "resource" },
      { name := "mode" }, { name := "conflicting", presence := .nullable }] with
  | some [some kind, some handle, some resource, some mode, conflicting] =>
    return {
      kind := ← NoticeKind.ofJson? stance kind
      handle := ← Handle.ofJson? handle
      resource := ← Key.ofJson? resource
      mode := ← Mode.ofJson? stance mode
      conflicting := ← Json.optional? (Conflict.ofJson? stance) conflicting }
  | _ => none

end Notification

namespace Grievance

def toJson : Grievance → Json
  | .undelivered handle error =>
    .record
      [("CallbackDeliveryFailed", .record [("handle", handle.toJson), ("error", .text error)])]
  | .overdue handle waited =>
    .record
      [("BlockingTimeout", .record [("handle", handle.toJson), ("waited_ms", .nat waited)])]

def ofJson? : Json → Option Grievance
  | .record [("CallbackDeliveryFailed", v)] =>
    match v.fields? [{ name := "handle" }, { name := "error" }] with
    | some [some handle, some error] => return .undelivered (← Handle.ofJson? handle) (← error.text?)
    | _ => none
  | .record [("BlockingTimeout", v)] =>
    match v.fields? [{ name := "handle" }, { name := "waited_ms" }] with
    | some [some handle, some waited] =>
      return .overdue (← Handle.ofJson? handle) (← waited.natural? UInt64.size)
    | _ => none
  | _ => none

end Grievance

namespace LockRequest

def toJson (r : LockRequest) : Json :=
  .record
    [("key", r.key.toJson), ("mode", r.mode.toJson), ("policy", r.policy.toJson),
      ("owner", r.owner.toJson), ("client_seq", .ofOption .ofWord r.clientSeq)]

/-- An absent policy covers the whole resource. -/
def policy? (stance : Stance) : Option Json → Option Policy
  | some v => Policy.ofJson? stance v
  | none => some .plain

def ofJson? (stance : Stance) (v : Json) : Option LockRequest :=
  match v.fields? [{ name := "key" }, { name := "mode" },
      { name := "policy", presence := .defaulted }, { name := "owner" },
      { name := "client_seq", presence := .defaulted }] with
  | some [some key, some mode, policy, some owner, clientSeq] =>
    return {
      key := ← Key.ofJson? key
      mode := ← Mode.ofJson? stance mode
      policy := ← policy? stance.deeper policy
      owner := ← Owner.ofJson? owner
      clientSeq := ← Json.optional? Json.word? clientSeq }
  | _ => none

end LockRequest

namespace Reply

def toJson (r : Reply) : Json :=
  .record
    [("handle", r.handle.toJson), ("state", r.state.toJson),
      ("granted_mode", .ofOption Mode.toJson r.grantedMode)]

def ofJson? (stance : Stance) (v : Json) : Option Reply :=
  match v.fields? [{ name := "handle" }, { name := "state" },
      { name := "granted_mode", presence := .nullable }] with
  | some [some handle, some state, grantedMode] =>
    return {
      handle := ← Handle.ofJson? handle
      state := ← LockState.ofJson? stance state
      grantedMode := ← Json.optional? (Mode.ofJson? stance) grantedMode }
  | _ => none

end Reply

namespace ResourceView

def placeToJson (p : UInt64 × Mode) : Json := .list [.ofWord p.1, p.2.toJson]

def placeOfJson? (stance : Stance) : Json → Option (UInt64 × Mode)
  | .list [cookie, mode] => return (← cookie.word?, ← Mode.ofJson? stance mode)
  | _ => none

def placesOfJson? (stance : Stance) (v : Json) : Option (List (UInt64 × Mode)) := do
  (← v.list?).mapM (placeOfJson? stance)

def toJson (r : ResourceView) : Json :=
  .record
    [("key", r.key.toJson), ("refs", .nat r.refs), ("granted", .list (r.granted.map placeToJson)),
      ("converting", .list (r.converting.map placeToJson)),
      ("waiting", .list (r.waiting.map placeToJson))]

def ofJson? (stance : Stance) (v : Json) : Option ResourceView :=
  match v.fields? [{ name := "key" }, { name := "refs" }, { name := "granted" },
      { name := "converting" }, { name := "waiting" }] with
  | some [some key, some refs, some granted, some converting, some waiting] =>
    return {
      key := ← Key.ofJson? key
      refs := ← refs.natural? UInt64.size
      granted := ← placesOfJson? stance granted
      converting := ← placesOfJson? stance converting
      waiting := ← placesOfJson? stance waiting }
  | _ => none

end ResourceView

namespace Config

def toJson (c : Config) : Json :=
  .record
    [("namespace", .text c.name), ("role", c.role.toJson), ("dispatch_workers", .nat c.workers),
      ("starvation_bypass_limit", .ofOption (fun n => .nat n.toNat) c.bypassLimit),
      ("blocking_timeout_ms", .nat c.blockingTimeout), ("sweep_interval_ms", .nat c.sweepInterval),
      ("initial_handle_capacity", .nat c.initialCapacity), ("history_depth", .nat c.historyDepth)]

def ofJson? (stance : Stance) (v : Json) : Option Config :=
  match v.fields? [{ name := "namespace" }, { name := "role" }, { name := "dispatch_workers" },
      { name := "starvation_bypass_limit", presence := .nullable },
      { name := "blocking_timeout_ms" }, { name := "sweep_interval_ms" },
      { name := "initial_handle_capacity" }, { name := "history_depth" }] with
  | some [some name, some role, some workers, bypassLimit, some blockingTimeout,
      some sweepInterval, some initialCapacity, some historyDepth] =>
    return {
      name := ← name.text?
      role := ← Role.ofJson? stance role
      workers := ← workers.natural? UInt64.size
      bypassLimit := ← Json.optional? Json.halfWord? bypassLimit
      blockingTimeout := ← blockingTimeout.natural? UInt64.size
      sweepInterval := ← sweepInterval.natural? UInt64.size
      initialCapacity := ← initialCapacity.natural? UInt64.size
      historyDepth := ← historyDepth.natural? UInt64.size }
  | _ => none

/-- The settings that are given by name, in place of those of `c`. -/
def withFields? (c : Config) (given : List (String × Json)) : Option Config :=
  match c.toJson with
  | .record fields =>
    ofJson? (.direct 0) (.record (fields.filter (fun f => (given.lookup f.1).isNone) ++ given))
  | _ => none

end Config

end LockManager
