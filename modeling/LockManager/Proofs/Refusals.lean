import LockManager.Control.Command
import LockManager.Proofs.Namespace.Refusals
import LockManager.Proofs.System.Events

set_option autoImplicit false

/-!
Answers that are errors, whether an operation is asked for as such, by a peer or in an administrative
request. Whoever gets one finds everything as it was.
-/

namespace LockManager

namespace Response

/-- An error can be told from any other answer by how its document begins. -/
theorem error_of_encode {response : Response} {code : ErrorCode} {message : String}
    (same : response.encode = (error code message).encode) :
    ∃ code message, response = .error code message := by
  have text : response.toJson.render = (error code message).toJson.render := by
    have read := congrArg Bytes.toText? same
    simp only [encode, Bytes.toText?_ofText, Option.some.injEq] at read
    exact read
  have written : response.toJson.write = (error code message).toJson.write :=
    String.ofList_injective text
  cases response with
  | error code message => exact ⟨code, message, rfl⟩
  | _ => simp [toJson, Json.write, Json.writeString, Json.writeFields, Json.escape] at written

theorem error_of_map {α : Type} {answer : Except LockError α} {f : α → Answer}
    (told : ∀ a, ∃ response, ofAnswer? (f a) = some response ∧
      ∀ code message, response ≠ .error code message)
    {code : ErrorCode} {message : String}
    (error : ofOutcome (answer.map f) = .error code message) : ∃ e, answer.map f = .error e := by
  cases answer with
  | error e => exact ⟨e, rfl⟩
  | ok a =>
    obtain ⟨response, there, other⟩ := told a
    refine absurd ?_ (other code message)
    simpa [ofOutcome, Except.map, there] using error

end Response

namespace Namespace

variable {ns : Namespace}

/-- What a peer asks for is answered with an error only if it is refused. -/
theorem refused_of_response {peer : Owner} {req : Request} {op : Operation}
    (asked : ns.operationOf peer req = .ok op) {code : ErrorCode} {message : String}
    (error : Response.ofOutcome (ns.perform op).1 = .error code message) :
    ∃ e, (ns.perform op).1 = .error e := by
  obtain rfl := operationOf_ok asked
  cases req <;> exact Response.error_of_map (fun _ => ⟨_, rfl, nofun⟩) error

/-- Nothing but a cancel is refused once the request has been read. -/
theorem untouched_handlePacked (ns : Namespace) {bytes : Bytes} {message : String}
    (error : (ns.handlePacked bytes).1 = .error message) : ns.Untouched (ns.handlePacked bytes).2 := by
  unfold Namespace.handlePacked at error ⊢
  cases read : Packed.unpack bytes >>= AdminCommand.ofPacked with
  | error e => exact .same
  | ok command =>
    rw [read] at error
    dsimp only at error ⊢
    cases command with
    | listLocks owner => cases error
    | listResources => cases error
    | forceCancel h =>
      have upfront := ns.upfront_cancel h
      simp only [execute] at error ⊢
      generalize ns.cancel h = done at error upfront ⊢
      obtain ⟨answer | answer, ns'⟩ := done
      · exact upfront.2
      · cases error
    | evict owner => cases error

namespace Calm

/-- A peer that is told of an error finds everything as it was. -/
theorem serve (calm : ns.Calm) {peer : Owner} {req : Request} {code : ErrorCode} {message : String}
    (error : (ns.serve peer req).1 = .error code message) : ns.Untouched (ns.serve peer req).2 := by
  unfold Namespace.serve at error ⊢
  cases asked : ns.operationOf peer req with
  | error e => exact .same
  | ok op =>
    rw [asked] at error
    obtain ⟨e, refused⟩ := refused_of_response asked error
    exact (calm.upfront_perform op).untouched refused

theorem handle (calm : ns.Calm) {peer : Owner} {bytes : Bytes} {code : ErrorCode} {message : String}
    (error : (ns.handle peer bytes).1 = (Response.error code message).encode) :
    ns.Untouched (ns.handle peer bytes).2 := by
  unfold Namespace.handle at error ⊢
  cases read : Request.decode? bytes with
  | none => exact .same
  | some req =>
    rw [read] at error
    obtain ⟨code, message, told⟩ := Response.error_of_encode error
    exact calm.serve told

end Calm
end Namespace

namespace System

variable {config : Config} {s : System}

/-- With no operation in progress, an operation is answered with an error exactly if there is something to
object to before it is begun, and with that error. Then nothing has been done, and the same holds of what
a peer or an administrator asks for, if it is answered with an error. -/
theorem untouched_when_refused (reachable : Reachable config s) (quiet : s.quiet = true) :
    (∀ op e, ((s.space.perform op).1 = .error e ↔ s.space.refusal? op = some e) ∧
      ((s.space.perform op).1 = .error e → s.space.Untouched (s.space.perform op).2)) ∧
    (∀ peer bytes code message,
      (s.space.handle peer bytes).1 = (Response.error code message).encode →
        s.space.Untouched (s.space.handle peer bytes).2) ∧
    ∀ bytes message, (s.space.handlePacked bytes).1 = .error message →
      s.space.Untouched (s.space.handlePacked bytes).2 := by
  have calm := reachable.calm quiet
  refine ⟨fun op e => ⟨(calm.upfront_perform op).error_iff, (calm.upfront_perform op).untouched⟩,
    fun peer bytes code message error => calm.handle error,
    fun bytes message error => s.space.untouched_handlePacked error⟩

/-- On the client's side, a lock has been granted. -/
def grantedAtClient : System :=
  (fresh { role := .client }).follow
    (Move.through (.enqueue { key := ⟨1, 0⟩, mode := .exclusive, owner := ⟨"a"⟩ }) 0)

/-- It is too late to bind it to another resource, which has been made for that by then. -/
theorem untouched_when_refused_rebind :
    (grantedAtClient.space.perform (.rebind ⟨0, 1⟩ ⟨2, 0⟩)).1 =
        .error (.protocolViolation ⟨0, 1⟩ .granted .rebind) ∧
      grantedAtClient.space.Untouched
        (grantedAtClient.space.perform (.rebind ⟨0, 1⟩ ⟨2, 0⟩)).2 := by
  have reachable : Reachable { role := .client } grantedAtClient := reachable_follow rfl _
  obtain ⟨decided, untouched⟩ :=
    (untouched_when_refused reachable (by decide +kernel)).1 (.rebind ⟨0, 1⟩ ⟨2, 0⟩)
      (.protocolViolation ⟨0, 1⟩ .granted .rebind)
  have refused := decided.mpr (by decide +kernel)
  exact ⟨refused, untouched refused⟩

end System
end LockManager
