import LockManager.Wire.Values

set_option autoImplicit false

/-!
Requests of peers. A peer asks on its own behalf, so a request names no owner.
-/

namespace LockManager

inductive Request where
  | enqueue (key : Key) (mode : Mode) (policy : Policy) (clientSeq : Option UInt64)
  | convert (handle : Handle) (mode : Mode)
  | cancel (handle : Handle)
  | glimpse (key : Key)
  deriving DecidableEq, Repr

namespace Request

def toJson : Request → Json
  | .enqueue key mode policy clientSeq =>
    .record
      [("op", .text "enqueue"), ("key", key.toJson), ("mode", mode.toJson),
        ("policy", policy.toJson), ("client_seq", .ofOption .ofWord clientSeq)]
  | .convert handle mode =>
    .record [("op", .text "convert"), ("handle", .ofWord handle.cookie), ("mode", mode.toJson)]
  | .cancel handle => .record [("op", .text "cancel"), ("handle", .ofWord handle.cookie)]
  | .glimpse key => .record [("op", .text "glimpse"), ("key", key.toJson)]

def ofJson? (stance : Json.Stance) (v : Json) : Option Request := do
  let (op, rest) ← v.tagged? stance "op"
  match ← op.text? with
  | "enqueue" =>
    match rest.fields? [{ name := "key" }, { name := "mode" },
        { name := "policy", presence := .defaulted },
        { name := "client_seq", presence := .defaulted }] with
    | some [some key, some mode, policy, clientSeq] =>
      return .enqueue (← Key.ofJson? key) (← Mode.ofJson? .ahead mode)
        (← LockRequest.policy? .ahead policy) (← Json.optional? Json.word? clientSeq)
    | _ => none
  | "convert" =>
    match rest.fields? [{ name := "handle" }, { name := "mode" }] with
    | some [some handle, some mode] =>
      return .convert (.ofCookie (← handle.word?)) (← Mode.ofJson? .ahead mode)
    | _ => none
  | "cancel" =>
    match rest.fields? [{ name := "handle" }] with
    | some [some handle] => return .cancel (.ofCookie (← handle.word?))
    | _ => none
  | "glimpse" =>
    match rest.fields? [{ name := "key" }] with
    | some [some key] => return .glimpse (← Key.ofJson? key)
    | _ => none
  | _ => none

def encode (r : Request) : Bytes := .ofText r.toJson.render

def decode? (bytes : Bytes) : Option Request := do
  ofJson? (.direct 0) (← Json.ofBytes? bytes)

end Request

namespace Notification

def encode (n : Notification) : Bytes := .ofText n.toJson.render

def decode? (bytes : Bytes) : Option Notification := do
  ofJson? (.direct 0) (← Json.ofBytes? bytes)

end Notification

end LockManager
