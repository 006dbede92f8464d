import LockManager.Proofs.Json.Shape
import LockManager.Wire.Response

set_option autoImplicit false

/-!
Whatever travels comes out as it was. Requests, responses and notifications are told from each other's
kinds by their tags, constants by their names, and what is absent by `null`; so what is decoded is what
has been encoded, and every answer to a peer is one that the peer can read.
-/

namespace LockManager

open Json (Stance)

/-! ### Constants -/

@[simp] theorem Mode.ofJson?_toJson (stance : Stance) (m : Mode) : ofJson? stance m.toJson = some m :=
  Json.choice?_text (by decide) m.mem_all

@[simp] theorem LockState.ofJson?_toJson (stance : Stance) (s : LockState) :
    ofJson? stance s.toJson = some s :=
  Json.choice?_text (by decide) (by cases s <;> decide)

@[simp] theorem ConvertStatus.ofJson?_toJson (stance : Stance) (s : ConvertStatus) :
    ofJson? stance s.toJson = some s :=
  Json.choice?_text (by decide) (by cases s <;> decide)

@[simp] theorem ErrorCode.ofJson?_toJson (stance : Stance) (c : ErrorCode) :
    ofJson? stance c.toJson = some c :=
  Json.choice?_text (by decide) (by cases c <;> decide)

@[simp] theorem NoticeKind.ofJson?_toJson (stance : Stance) (k : NoticeKind) :
    ofJson? stance k.toJson = some k :=
  Json.choice?_text (by decide) (by cases k <;> decide)

/-! ### Structures -/

@[simp] theorem Owner.ofJson?_toJson (o : Owner) : ofJson? o.toJson = some o := rfl

@[simp] theorem Key.ofJson?_toJson (k : Key) : ofJson? k.toJson = some k := by
  simp [ofJson?, toJson, Json.fields?_record]

@[simp] theorem Handle.ofJson?_toJson (h : Handle) : ofJson? h.toJson = some h := by
  simp [ofJson?, toJson, Json.fields?_record]

@[simp] theorem Policy.ofJson?_toJson (p : Policy) : ofJson? .ahead p.toJson = some p := by
  cases p <;>
    simp [ofJson?, toJson, Json.fields?_record, Json.tagged?_record .ahead rfl, kind?, kinds]

@[simp] theorem Conflict.ofJson?_toJson (stance : Stance) (c : Conflict) :
    ofJson? stance c.toJson = some c := by
  simp [ofJson?, toJson, Json.fields?_record, Json.optional?_ofOption Handle.ofJson?_toJson nofun,
    Json.optional?_ofOption (Mode.ofJson?_toJson stance) nofun]

@[simp] theorem Notification.ofJson?_toJson (stance : Stance) (n : Notification) :
    ofJson? stance n.toJson = some n := by
  simp [ofJson?, toJson, Json.fields?_record,
    Json.optional?_ofOption (Conflict.ofJson?_toJson stance) nofun]

/-! ### How deep they are nested -/

open Json (Within)

section Depth

variable {d : Nat}

theorem Mode.within (m : Mode) : Within d m.toJson := .text _

theorem LockState.within (s : LockState) : Within d s.toJson := .text _

theorem ConvertStatus.within (s : ConvertStatus) : Within d s.toJson := .text _

theorem ErrorCode.within (c : ErrorCode) : Within d c.toJson := .text _

theorem NoticeKind.within (k : NoticeKind) : Within d k.toJson := .text _

theorem Owner.within (o : Owner) : Within d o.toJson := .text _

theorem Key.within (k : Key) : Within (d + 1) k.toJson := .record (by simp [Within.ofWord])

theorem Handle.within (h : Handle) : Within (d + 1) h.toJson := .record (by simp [Within.ofHalfWord])

theorem Policy.within (p : Policy) : Within (d + 1) p.toJson := by
  cases p <;> exact .record (by simp [Within.ofWord, Within.text])

theorem Conflict.within (c : Conflict) : Within (d + 2) c.toJson :=
  .record (by simp [Within.ofOption, Handle.within, Owner.within, Mode.within])

theorem Notification.within (n : Notification) : Within (d + 3) n.toJson :=
  .record (by
    simp [Within.ofOption, NoticeKind.within, Handle.within, Key.within, Mode.within, Conflict.within])

theorem Request.within (r : Request) : Within (d + 2) r.toJson := by
  cases r <;>
    exact .record (by
      simp [Within.ofWord, Within.text, Within.ofOption, Key.within, Mode.within, Policy.within])

theorem Response.within (r : Response) : Within (d + 1) r.toJson := by
  cases r <;>
    exact .record (by
      simp [Within.ofWord, Within.text, Within.ofOption, LockState.within, Mode.within,
        ConvertStatus.within, ErrorCode.within])

end Depth

/-! ### Requests and responses -/

-- The tag is read by rewriting: where `simp` binds, the kernel would unfold what is read later.

@[simp] theorem Request.ofJson?_toJson (r : Request) : ofJson? (.direct 0) r.toJson = some r := by
  have admitted : (Stance.direct 0).admits r.toJson = true :=
    Within.admits (Request.within (d := 0) r) (by decide)
  cases r with
  | enqueue | convert | cancel | glimpse =>
    have tagged := Json.tagged?_record _ admitted (by simp)
    unfold ofJson? toJson
    rw [tagged, Option.bind_eq_bind, Option.bind_some]
    dsimp only [Json.text?]
    rw [Option.bind_eq_bind, Option.bind_some]
    simp [Json.fields?_record, LockRequest.policy?, Json.optional?_ofOption Json.word?_ofWord nofun]

@[simp] theorem Response.ofJson?_toJson (r : Response) : ofJson? (.direct 0) r.toJson = some r := by
  have admitted : (Stance.direct 0).admits r.toJson = true :=
    Within.admits (Response.within (d := 0) r) (by decide)
  cases r with
  | enqueued | converted | canceled | glimpsed | error =>
    have tagged := Json.tagged?_record _ admitted (by simp)
    unfold ofJson? toJson
    rw [tagged, Option.bind_eq_bind, Option.bind_some]
    dsimp only [Json.text?]
    rw [Option.bind_eq_bind, Option.bind_some]
    simp [Json.fields?_record, Json.optional?_ofOption (Mode.ofJson?_toJson _) nofun]

/-! ### Bytes -/

@[simp] theorem Request.decode?_encode (r : Request) : decode? r.encode = some r := by
  have basic : r.toJson.basic = true := (Request.within (d := 0) r).basic
  simp [decode?, encode, Json.ofBytes?_render basic]

@[simp] theorem Response.decode?_encode (r : Response) : decode? r.encode = some r := by
  have basic : r.toJson.basic = true := (Response.within (d := 0) r).basic
  simp [decode?, encode, Json.ofBytes?_render basic]

@[simp] theorem Notification.decode?_encode (n : Notification) : decode? n.encode = some n := by
  have basic : n.toJson.basic = true := (Notification.within (d := 0) n).basic
  simp [decode?, encode, Json.ofBytes?_render basic]

/-- Encoding loses nothing, and whatever bytes a peer sends, it can read the answer. -/
theorem decode?_encode_and_handle :
    (∀ r : Request, Request.decode? r.encode = some r) ∧
      (∀ r : Response, Response.decode? r.encode = some r) ∧
      (∀ n : Notification, Notification.decode? n.encode = some n) ∧
      ∀ (ns : Namespace) (peer : Owner) (bytes : Bytes),
        Response.decode? (ns.handle peer bytes).1 =
          some (match Request.decode? bytes with
            | none => .undecodable
            | some req => (ns.serve peer req).1) := by
  refine ⟨Request.decode?_encode, Response.decode?_encode, Notification.decode?_encode,
    fun ns peer bytes => ?_⟩
  unfold Namespace.handle
  cases Request.decode? bytes with
  | none => exact Response.decode?_encode .undecodable
  | some req => exact Response.decode?_encode (ns.serve peer req).1

end LockManager
