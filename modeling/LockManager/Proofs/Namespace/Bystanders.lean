import LockManager.Proofs.Alone

set_option autoImplicit false

/-!
What becomes of the locks that an operation is not about. Queues they are in may be looked at again:
then a lock may come to what it waited for, and nothing else happens to it.
-/

namespace LockManager
namespace Namespace

variable {ns ns' ns'' : Namespace} {k l : LockId} {r : ResourceId}

/-- The lock is where it was. It stands as it did, or has come to what it waited for. -/
structure Bystands (ns ns' : Namespace) (k : LockId) : Prop where
  stays : Ledger.Stays (ns.lock k).outline (ns'.lock k).outline
  served : (ns.lock k).Served False (ns'.lock k)

/-- No lock has come, or come back, and those other than `l` have stood by. -/
structure Confined (ns : Namespace) (l : LockId) (ns' : Namespace) : Prop where
  size : ns'.locks.size = ns.locks.size
  claim : ∀ k, (ns'.lock k).claim = (ns.lock k).claim
  gone : ∀ k, (ns.lock k).retired = true → (ns'.lock k).retired = true
  others : ∀ k, k ≠ l → Bystands ns ns' k

namespace Bystands

theorem of_eq (same : ns'.lock k = ns.lock k) : Bystands ns ns' k := by
  constructor <;> rw [same]
  · exact .refl _
  · exact .refl _

theorem of_outline (same : (ns'.lock k).outline = (ns.lock k).outline) : Bystands ns ns' k := by
  refine ⟨same ▸ .refl _, .still ?_ ?_ nofun⟩
  · exact (congrArg Lock.claim same :)
  · exact (congrArg Lock.standing same :)

theorem trans (first : Bystands ns ns' k) (second : Bystands ns' ns'' k) : Bystands ns ns'' k :=
  ⟨first.stays.trans second.stays, first.served.trans second.served⟩

end Bystands

namespace Confined

theorem of_records {gone : LockId → Prop} (records : Records ns ns' gone)
    (others : ∀ k, k ≠ l → Bystands ns ns' k) : Confined ns l ns' :=
  ⟨records.size, records.claim, fun k past => (records.retired k).mpr (.inl past), others⟩

theorem of_alike (alike : Alike ns ns') : Confined ns l ns' :=
  .of_records (.of_alike alike fun _ => not_false) fun k _ => .of_outline (alike.lock k)

theorem refl (ns : Namespace) (l : LockId) : Confined ns l ns := .of_alike (.refl ns)

theorem trans (first : Confined ns l ns') (second : Confined ns' l ns'') : Confined ns l ns'' :=
  ⟨second.size.trans first.size, fun k => (second.claim k).trans (first.claim k),
    fun k past => second.gone k (first.gone k past),
    fun k other => (first.others k other).trans (second.others k other)⟩

theorem of_onward (onward : Onward ns ns')
    (served : ∀ k, k ≠ l → (ns.lock k).Served (ns.dispatcher.closed = false) (ns'.lock k)) :
    Confined ns l ns' := by
  refine .of_records (.of_onward onward fun _ => not_false) fun k other => ⟨?_, ?_⟩
  · exact onward.keeps.lock k
  · exact (served k other).mono nofun

end Confined

/-! ### Stages -/

theorem Sound.confined_submit (sound : ns.Sound) (known : l < ns.locks.size)
    (bound : (ns.lock l).resource = r) {reply : Reply} (done : ns.submit l r = .ok (reply, ns')) :
    Confined ns l ns' := by
  apply Confined.of_onward (sound.submit known bound done)
  intro k other
  exact served_submit known (sound.ledger.coherent.named l known) done other

theorem Sound.confined_changeMode (sound : ns.Sound) (known : l < ns.locks.size)
    (bound : (ns.lock l).resource = r) {mode : Mode} {status : ConvertStatus}
    (done : ns.changeMode l mode r = .ok (status, ns')) : Confined ns l ns' := by
  apply Confined.of_onward (sound.changeMode known bound done)
  intro k other
  exact served_changeMode (sound.ledger.coherent.named l known) done other

theorem confined_mark (marked : ns.mark? l = some ns') : Confined ns l ns' := by
  refine .of_records (records_mark marked fun _ => not_false) fun k other => ?_
  obtain ⟨-, rfl⟩ := mark?_eq marked
  exact .of_eq ((ns.lock_modifyLock _ l k).trans (if_neg fun both => other both.1.symm))

theorem Sound.confined_leave (sound : ns.Sound) (known : l < ns.locks.size)
    (canceling : (ns.lock l).state = .canceling) :
    Confined ns l (ns.leave l (ns.lock l).resource) := by
  obtain ⟨b, left⟩ := sound.leave known rfl canceling
  obtain ⟨-, served⟩ := ns.served_leave l (ns.lock l).resource
  exact .of_records (.of_left left) fun k other => ⟨left.stays other, (served k other).mono nofun⟩

/-! ### Operations -/

theorem Sound.confined_cancelLock (sound : ns.Sound) (known : l < ns.locks.size) :
    Confined ns l (ns.cancelLock l) := by
  unfold Namespace.cancelLock
  cases marked : ns.mark? l with
  | none => exact .refl ns l
  | some ns₁ =>
    dsimp only
    have marking := confined_mark marked
    have sound₁ := sound.mark known marked
    have canceling : (ns₁.lock l).state = .canceling := by
      obtain ⟨-, rfl⟩ := mark?_eq marked
      rw [lock_modifyLock, if_pos ⟨rfl, known⟩]
      rfl
    have leaving := sound₁.confined_leave (known.trans_eq marking.size.symm) canceling
    exact (marking.trans leaving).trans (.of_alike (alike_release _ _))

namespace Calm

/-- An enqueue does nothing, or makes a lock and deals with that. -/
theorem confined_enqueue (calm : ns.Calm) (req : LockRequest) :
    (ns.enqueue req).2 = ns ∨ Confined (ns.addLock req).2 ns.locks.size (ns.enqueue req).2 := by
  unfold enqueue
  cases done : ns.register req with
  | error e => exact .inl rfl
  | ok answer =>
    obtain ⟨registration, ns₁⟩ := answer
    rcases register_ok done with ⟨l, rfl, rfl⟩ | ⟨rfl, rfl, running, valid, -⟩
    · exact .inl rfl
    · refine .inr ?_
      have added := calm.sound.addLock valid
      have stopping : (ns.addLock req).2.stopping = false :=
        (ns.steady_addLock req).stopping.trans running
      dsimp only
      generalize (ns.addLock req).2 = ns₁ at added stopping ⊢
      have last : ns.locks.size < ns₁.locks.size := added.size ▸ Nat.lt_succ_self _
      have done := submit_of_new added.new stopping (ns₁.lock ns.locks.size).resource rfl
      rw [done]
      exact added.sound.confined_submit last rfl done

/-- A change of mode does nothing, or deals with the lock that the handle names. -/
theorem confined_convert (calm : ns.Calm) (h : Handle) (mode : Mode) :
    (ns.convert h mode).2 = ns ∨ ∃ l, ns.lookup h = .ok l ∧ Confined ns l (ns.convert h mode).2 := by
  unfold convert
  cases ns.ensureRunning with
  | error e => exact .inl rfl
  | ok _ =>
    cases found : ns.lookup h with
    | error e => exact .inl rfl
    | ok l =>
      dsimp only
      cases done : ns.changeMode l mode (ns.lock l).resource with
      | error e => exact .inl rfl
      | ok answer =>
        exact .inr ⟨l, rfl, calm.sound.confined_changeMode (calm.named found).1.1 rfl done⟩

/-- So does a cancel. -/
theorem confined_cancel (calm : ns.Calm) (h : Handle) :
    (ns.cancel h).2 = ns ∨ ∃ l, ns.lookup h = .ok l ∧ Confined ns l (ns.cancel h).2 := by
  unfold cancel
  cases status : ns.handles.status h with
  | retired | unknown => exact .inl rfl
  | live l =>
    refine .inr ⟨l, ?_, calm.sound.confined_cancelLock (calm.live status).1.1⟩
    unfold lookup
    rw [calm.numbered.status_eq_live.mp status]

end Calm

/-- Nobody gains anything when locks are asked what they have cached. -/
theorem Sound.alike_glimpse (sound : ns.Sound) (key : Key) (requester : Owner) :
    Alike ns (ns.glimpse key requester).2 := by
  unfold glimpse
  cases ns.ensureRunning with
  | error e => exact .refl ns
  | ok _ =>
    unfold find?
    cases there : ns.index.get? key with
    | none => exact .refl ns
    | some r =>
      have finding := ns.alike_addRef r
      have held : r < (ns.addRef r).resources.size :=
        (sound.indexed key r there).trans_le finding.grown
      have asking := alike_ask held requester
      simp only [Option.map_some]
      generalize (ns.addRef r).ask r requester = answer at asking ⊢
      obtain ⟨n, ns₁⟩ := answer
      exact (finding.alike asking).alike (ns₁.alike_release r)

end Namespace
end LockManager
