import LockManager.Proofs.Ledger.Leaving
import LockManager.Proofs.Ledger.Shift
import LockManager.Proofs.System
import LockManager.Proofs.Task.Opening

set_option autoImplicit false

/-!
What happens to a system happens to its ledger one lock at a time: what each of its steps does is known of
the ledger, and comes down to a run of steps of the ledger.
-/

namespace LockManager

open Ledger (Shift)

namespace Namespace

variable {ns ns' : Namespace} {k : LockId} {r : ResourceId} {brought : Option LockId}

theorem Alike.shift (same : Alike ns ns') : Shift ns.ledger brought ns'.ledger := by
  rw [same.ledger]
  exact .still brought

theorem Sound.shift_submit (sound : ns.Sound) (known : k < ns.locks.size)
    (bound : (ns.lock k).resource = r) {reply : Reply} (done : ns.submit k r = .ok (reply, ns')) :
    Shift ns.ledger (some k) ns'.ledger := by
  rcases sound.submit_becomes known bound done with rfl | ⟨new, b, rfl, ⟨free, passed, turns⟩ |
    ⟨-, turns⟩⟩
  · exact .still _
  · rw [turns.ledger]
    exact .accept known new bound rfl free passed
  · rw [turns.ledger]
    exact .wait known new

theorem Sound.shift_changeMode (sound : ns.Sound) (known : k < ns.locks.size)
    (bound : (ns.lock k).resource = r) {mode : Mode} {status : ConvertStatus}
    (done : ns.changeMode k mode r = .ok (status, ns')) : Shift ns.ledger none ns'.ledger := by
  rcases sound.changeMode_becomes known bound done with rfl | ⟨granted, ⟨blocked, turns⟩ |
    ⟨free, b, awards, -, turns⟩⟩
  · exact .still _
  · rw [turns.ledger]
    exact .pend known granted blocked
  · rw [turns.ledger]
    exact .switch known granted free awards

theorem Sound.shift_leave (sound : ns.Sound) (known : k < ns.locks.size)
    (bound : (ns.lock k).resource = r) (canceling : (ns.lock k).state = .canceling) :
    Shift ns.ledger none (ns.leave k r).ledger := by
  obtain ⟨b, ns₁, awards, -, turns, same⟩ := sound.leave_becomes known bound canceling
  have known₁ : k < b.size := (Ledger.Keeps.grants awards.grants).size.symm ▸ known
  have left : (ns.leave k r).ledger = b.set k { b.lock k with retired := true } := by
    rw [same]
    exact (turns.retire known₁).ledger
  rw [left]
  exact .leave known canceling awards

theorem shift_move (known : k < ns.locks.size) (target : ResourceId) :
    Shift ns.ledger none (ns.move k target).2.2.ledger := by
  unfold Namespace.move
  dsimp only
  split
  · next new =>
    have moved := ns.becomes_modifyLock known
      ({ · with resource := target, key := (ns.resource target).key })
    rw [moved.ledger]
    exact .rebind known new target (ns.resource target).key
  · exact .still _

end Namespace

theorem Opening.shift {ns ns' : Namespace} {todo : List Stage} (opening : Opening ns todo ns') :
    Shift ns.ledger none ns'.ledger := by
  cases opening with
  | still _ => exact .still _
  | @register req _ _ valid _ _ =>
    obtain ⟨x, added, fresh, new, nothing, policy⟩ := ns.ledger_addLock req
    rw [added]
    exact .register fresh new nothing (policy ▸ valid)
  | @rebind _ k _ _ => exact (ns.alike_findOrCreate k).shift
  | @glimpse _ r _ _ => exact (ns.alike_addRef r).shift
  | evict owner => exact (ns.alike_silence _).shift
  | shutdown _ => exact ns.alike_beginShutdown.shift

namespace Stage

/-- The lock that the stage brings to the queues. -/
def brings? : Stage → Option LockId
  | .submit l _ => some l
  | _ => none

theorem Ready.shift {ns : Namespace} {stage : Stage} {r : ResourceId} (ready : stage.Ready ns r)
    (sound : ns.Sound) :
    Shift ns.ledger stage.brings? (stage.carryOut ns r).space.ledger := by
  have releasing {ns' : Namespace} (done : Shift ns.ledger none ns'.ledger) (q : ResourceId)
      (outcome : Option Outcome) :
      Shift ns.ledger none (Progress.releasing ns' q outcome).space.ledger := by
    have same : (Progress.releasing ns' q outcome).space.ledger = ns'.ledger :=
      (ns'.alike_dropRef q).ledger
    rw [same]
    exact done
  obtain ⟨fits, bound, going⟩ := ready
  cases stage with
  | submit k discard =>
    simp only [carryOut]
    split
    · next done => exact sound.shift_submit fits (bound k _ rfl) done
    · cases discard with
      | true => exact (ns.alike_silence [k]).shift
      | false => exact .still _
  | changeMode k mode =>
    simp only [carryOut]
    split
    · next done => exact sound.shift_changeMode fits (bound k _ rfl) done
    · exact .still _
  | mark k join =>
    simp only [carryOut]
    split
    · next marked =>
      obtain ⟨stays, turns⟩ := Namespace.mark_some fits marked
      rw [turns.ledger]
      exact .mark fits stays
    · exact .still _
  | leave k => exact releasing (sound.shift_leave fits (bound k _ rfl) (going k rfl)) _ _
  | ask q requester =>
    have same : (ns.ask q requester).2.ledger = ns.ledger :=
      (Namespace.alike_ask fits requester).ledger
    exact releasing (same ▸ .still _) q _
  | reclaim q => exact (ns.alike_reclaim q).shift
  | move k target => exact releasing (Namespace.shift_move fits.1 target) _ _
  | forget owner => exact (ns.alike_forget owner).shift
  | close => exact ns.alike_closeDispatcher.shift
  | look q others seen => cases others <;> exact .still _
  | _ => exact .still _

end Stage

namespace System

variable {s t : System} {i : TaskId}

theorem Sound.shift_carryOut (sound : s.Sound) {stage : Stage} {rest : List Stage}
    {r : ResourceId} (todo : (s.task i).todo = stage :: rest) (prepared : s.prepared? i = some r) :
    Shift s.space.ledger stage.brings? (stage.carryOut s.space r).space.ledger :=
  (sound.ready todo prepared).shift sound.space

theorem Sound.shift (sound : s.Sound) (step : Step s t) :
    ∃ brought, Shift s.space.ledger brought t.space.ledger := by
  rcases sound.change step with ⟨op, space⟩ | ⟨stage, r, ready, space⟩ | same
  · exact ⟨none, space ▸ (Task.opening_start s.space op).shift⟩
  · exact ⟨_, space ▸ ready.shift sound.space⟩
  · exact ⟨none, same.shift⟩

theorem Sound.steps (sound : s.Sound) (step : Step s t) :
    Ledger.Steps s.space.ledger t.space.ledger := by
  obtain ⟨brought, shift⟩ := sound.shift step
  exact shift.steps

end System
end LockManager
