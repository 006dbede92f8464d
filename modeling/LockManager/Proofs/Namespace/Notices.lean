import LockManager.Proofs.Namespace.Conclude
import LockManager.Proofs.Namespace.Operations

set_option autoImplicit false

/-!
What an operation sends to locks when it runs to its end with nothing in between: to a lock that is
granted what it waited for, that it has been; and to a lock in someone's way as things stand at the
end, that it is.
-/

namespace LockManager

namespace Lock

/-- The lock waited, for its first grant or for another mode, and has been granted. -/
def Gains (x x' : Lock) : Prop :=
  (x.state = .waiting ∨ x.state = .converting) ∧ x'.state = .granted

/-- The lock is told of what it gains, and of nothing else. -/
structure Apprised (x x' : Lock) (told : List Notification) : Prop where
  gains : x.Gains x' → ∃ mode, x'.grantedMode = some mode ∧ told = x.tidings mode
  rests : ¬x.Gains x' → told = []

variable {x x' : Lock} {told : List Notification}

theorem not_gains_of_state (same : x'.state = x.state) : ¬x.Gains x' := by
  rintro ⟨waits | converts, granted⟩
  · rw [same, waits] at granted
    cases granted
  · rw [same, converts] at granted
    cases granted

theorem Apprised.nothing (rests : ¬x.Gains x') : x.Apprised x' [] :=
  ⟨fun gains => absurd gains rests, fun _ => rfl⟩

theorem Learns.apprised (learns : x.Learns x' told) (arrived : x.state ≠ .enqueued) :
    x.Apprised x' told := by
  cases learns with
  | still standing => exact .nothing (not_gains_of_state (congrArg Standing.state standing))
  | @granted mode edge standing =>
    have held : x'.grantedMode = some mode := congrArg Standing.held standing
    have wants := (LockState.allows_granted_iff.mp edge).resolve_left arrived
    exact ⟨fun _ => ⟨mode, held, rfl⟩,
      fun rests => absurd ⟨wants, congrArg Standing.state standing⟩ rests⟩

/-- A lock that wants nothing learns nothing. -/
theorem Learns.eq_nil (learns : x.Learns x' told) (rests : x.state.allows .granted = false) :
    told = [] ∧ x'.standing = x.standing := by
  cases learns with
  | still standing => exact ⟨rfl, standing⟩
  | granted edge _ =>
    rw [rests] at edge
    cases edge

end Lock

namespace Namespace

variable {ns ns' ns'' : Namespace} {k l : LockId} {r : ResourceId} {told asked : List Notification}

/-- What has been sent to lock `k`: what it is to be told about its grant, and then that it is in
someone's way. -/
structure Notices (ns ns' : Namespace) (k : LockId) (told asked : List Notification) : Prop where
  sent : (ns.lock k).Sent (ns'.lock k) (told ++ asked)
  apprised : (ns.lock k).Apprised (ns'.lock k) told
  presses : ∀ n ∈ asked, ∃ r, (ns'.resource r).queues.Presses k (ns.lock k) n

namespace Notices

theorem refl (ns : Namespace) (k : LockId) : Notices ns ns k [] [] :=
  ⟨.refl _, .nothing (Lock.not_gains_of_state rfl), by simp⟩

/-- What comes after is none of the lock's concern. -/
theorem after (notices : Notices ns ns' k told asked) (sent : (ns'.lock k).Sent (ns''.lock k) [])
    (standing : (ns''.lock k).standing = (ns'.lock k).standing)
    (queues : ∀ r, (ns''.resource r).queues = (ns'.resource r).queues) :
    Notices ns ns'' k told asked := by
  have state : (ns''.lock k).state = (ns'.lock k).state := congrArg Standing.state standing
  have held : (ns''.lock k).grantedMode = (ns'.lock k).grantedMode := congrArg Standing.held standing
  refine ⟨List.append_nil (told ++ asked) ▸ notices.sent.trans sent, ⟨?_, ?_⟩, fun n member => ?_⟩
  · rw [Lock.Gains, state, held]
    exact notices.apprised.gains
  · rw [Lock.Gains, state]
    exact notices.apprised.rests
  · obtain ⟨r, presses⟩ := notices.presses n member
    exact ⟨r, (queues r).symm ▸ presses⟩

/-- The lock is neither told anything nor granted anything before the operation begins in earnest. -/
theorem before (notices : Notices ns' ns'' k told asked) (sent : (ns.lock k).Sent (ns'.lock k) [])
    (state : (ns'.lock k).state = (ns.lock k).state) : Notices ns ns'' k told asked := by
  refine ⟨sent.trans notices.sent, ⟨fun gains => ?_, fun rests => ?_⟩, fun n member => ?_⟩
  · obtain ⟨mode, held, same⟩ := notices.apprised.gains (by rwa [Lock.Gains, state])
    refine ⟨mode, held, same.trans ?_⟩
    rw [Lock.tidings, Lock.tidings, sent.suppressed, sent.completed_eq]
  · exact notices.apprised.rests (by rwa [Lock.Gains, state])
  · obtain ⟨r, presses⟩ := notices.presses n member
    exact ⟨r, presses.congr sent⟩

end Notices

theorem queues_conclude (held : r < ns.resources.size) (a : Arbiter) :
    ((ns.conclude r a).resource r).queues = a.queues := by
  have same := (alike_dispatch { ns with
    locks := a.locks
    resources := ns.resources.modify r ({ · with queues := a.queues }) } a.touched).ledger
  have taken := congrFun (congrArg Ledger.queues same) r
  exact taken.trans (congrArg Resource.queues (Arena.get_modify_self _ _ held))

/-- What has been decided on a resource is what its locks notice, while the dispatcher is open. -/
theorem notices_conclude (opened : ns.dispatcher.closed = false) (held : r < ns.resources.size)
    {a₀ a : Arbiter} (before : (ns.lock k).Sent (a₀.lock k) [])
    (posted : a₀.Posted a k told asked) (apprised : (ns.lock k).Apprised (a.lock k) told) :
    Notices ns (ns.conclude r a) k told asked := by
  obtain ⟨scheduled, pending, same, kept⟩ := ns.lock_conclude r a k
  obtain rfl := kept opened
  have sent : (ns.lock k).Sent (a.lock k) (told ++ asked) := before.trans posted.sent
  refine ⟨?_, ?_, fun n member => ⟨r, ?_⟩⟩
  · rw [same]
    exact ⟨sent.claim, sent.key, sent.suppressed, sent.pending⟩
  · rw [same]
    exact ⟨apprised.gains, apprised.rests⟩
  · rw [queues_conclude held]
    exact (posted.presses n member).congr before

theorem Notices.release (notices : Notices ns ns' k told asked) (r : ResourceId) :
    Notices ns (ns'.release r) k told asked := by
  have same := lock_of_roster (ns'.roster_release r) k
  refine notices.after (same ▸ .refl _) (congrArg Lock.standing same) ?_
  exact congrFun (congrArg Ledger.queues (ns'.alike_release r).ledger)

/-! ### Coming -/

/-- A lock that comes to its resource is told nothing, and gains nothing for anybody. -/
theorem notices_submit (opened : ns.dispatcher.closed = false) (known : l < ns.locks.size)
    (named : (ns.lock l).claim.id = l) (held : r < ns.resources.size) {reply : Reply}
    (done : ns.submit l r = .ok (reply, ns')) (k : LockId) :
    ∃ asked, Notices ns ns' k [] asked := by
  rcases submit_ok done with rfl | ⟨new, rfl⟩
  · exact ⟨[], .refl ns' k⟩
  · have entered := (ns.arbiter r).lock_modifyLock l fun _ => (ns.lock l).enter .enqueued
    have silent := (ns.arbiter r).sent_modifyLock (l := l)
      (f := fun _ => (ns.lock l).enter .enqueued) (.nothing rfl rfl rfl rfl) k
    generalize (ns.arbiter r).modifyLock l _ = a at entered silent ⊢
    have self : (a.lock l) = (ns.lock l).enter .enqueued := (entered l).trans (if_pos ⟨rfl, known⟩)
    obtain ⟨asked, posted⟩ := a.receive_posts (ns.lock l).claim (ns.lock l).requestedMode k
    obtain ⟨-, others, -⟩ := a.receive_lock (ns.lock l).claim (by rw [named, self]; rfl)
      (ns.lock l).requestedMode
    refine ⟨asked, notices_conclude opened held silent posted (.nothing ?_)⟩
    by_cases mine : k = l
    · rintro ⟨waits | converts, -⟩
      · rw [mine, new] at waits
        cases waits
      · rw [mine, new] at converts
        cases converts
    · apply Lock.not_gains_of_state
      have same := others k (named.symm ▸ mine)
      rw [entered, if_neg fun both => mine both.1.symm] at same
      exact congrArg Standing.state same

/-! ### Changing mode -/

/-- A lock that changes mode is told nothing. If it waits, that gains nothing for anybody; if it does
not, others may have come to what they waited for. -/
theorem notices_changeMode (opened : ns.dispatcher.closed = false) (known : l < ns.locks.size)
    (named : (ns.lock l).claim.id = l) (held : r < ns.resources.size)
    (arrived : (ns.lock k).state ≠ .enqueued) {mode : Mode} {status : ConvertStatus}
    (done : ns.changeMode l mode r = .ok (status, ns')) :
    ∃ told asked, Notices ns ns' k told asked := by
  rcases changeMode_ok done with rfl | ⟨granted, decided⟩
  · exact ⟨[], [], .refl ns' k⟩
  · have entered := (ns.arbiter r).lock_modifyLock l fun _ => (ns.lock l).ask mode
    have silent := (ns.arbiter r).sent_modifyLock (l := l)
      (f := fun _ => (ns.lock l).ask mode) (.nothing rfl rfl rfl rfl) k
    unfold asking at decided
    generalize (ns.arbiter r).modifyLock l _ = a at entered silent decided
    have mine (same : k = l) : ∀ x : Lock, ¬(ns.lock k).Gains x := by
      rintro x ⟨waits | converts, -⟩
      · rw [same, granted] at waits
        cases waits
      · rw [same, granted] at converts
        cases converts
    rcases decided with ⟨-, rfl⟩ | ⟨-, b, converted, rfl⟩
    · have asks : Arbiter.Asking (a.modifyQueues (·.addConverting ⟨(ns.lock l).claim, mode⟩)) _ :=
        Arbiter.asking_askHolders (w := ⟨(ns.lock l).claim, mode⟩) _
          (.inl (List.mem_append_right _ (List.mem_singleton_self _)))
      obtain ⟨asked, posted⟩ := asks.posted (k := k) (a := a) (.refl _)
      refine ⟨[], asked, notices_conclude opened held silent posted (.nothing ?_)⟩
      by_cases same : k = l
      · exact mine same _
      · apply Lock.not_gains_of_state
        have standing := (asks.lock k).1
        rw [show (a.modifyQueues _).lock k = ns.lock k from
          (entered k).trans (if_neg fun both => same both.1.symm)] at standing
        exact congrArg Standing.state standing
    · obtain ⟨now, others⟩ := Arbiter.lock_convert converted
      rw [named] at now others
      have switched := Arbiter.silent_allots.convert converted k
      obtain ⟨told, asked, posted, learns⟩ := b.reprocess_posts k
      by_cases same : k = l
      · obtain rfl := same
        obtain ⟨rfl, -⟩ := learns.eq_nil (by rw [now]; rfl)
        exact ⟨[], asked, notices_conclude opened held (silent.silent switched) posted
          (.nothing (mine rfl _))⟩
      · have still : b.lock k = ns.lock k :=
          (others k same).trans ((entered k).trans (if_neg fun both => same both.1.symm))
        rw [still] at learns
        exact ⟨told, asked, notices_conclude opened held (silent.silent switched) posted
          (learns.apprised arrived)⟩

/-! ### Going -/

/-- When a lock leaves, others may come to what they waited for. -/
theorem notices_leave (opened : ns.dispatcher.closed = false) (held : r < ns.resources.size)
    (other : k ≠ l) (arrived : (ns.lock k).state ≠ .enqueued) :
    ∃ told asked, Notices ns (ns.leave l r) k told asked := by
  unfold leave
  dsimp only
  have old : (((ns.arbiter r).modifyQueues (·.remove l)).modifyLock l fun lock =>
      { (lock.advance? .canceled).getD lock with
        grantedMode := none, blockingSentAt := none, pending := [] }).lock k = ns.lock k :=
    (Arbiter.lock_modifyLock _ l _ k).trans (if_neg fun both => other both.1.symm)
  generalize Arbiter.modifyLock _ l _ = a at old ⊢
  obtain ⟨told, asked, posted, learns⟩ := a.reprocess_posts k
  rw [old] at learns
  have concluded := notices_conclude opened held (old ▸ .refl _) posted (learns.apprised arrived)
  generalize ns.conclude r a.reprocess = ns₁ at concluded ⊢
  have same := ns₁.lock_dropReplay (ns₁.lock l).claim k
  have queues : ∀ r, ((ns₁.dropReplay (ns₁.lock l).claim).resource r).queues =
      (ns₁.resource r).queues :=
    congrFun (congrArg Ledger.queues (ns₁.alike_dropReplay (ns₁.lock l).claim).ledger)
  generalize ns₁.dropReplay (ns₁.lock l).claim = ns₂ at same queues ⊢
  have last : (ns₂.modifyLock l ({ · with retired := true })).lock k = ns₂.lock k :=
    (ns₂.lock_modifyLock _ l k).trans (if_neg fun both => other both.1.symm)
  refine ⟨told, asked, concluded.after ?_ ?_ queues⟩
  · exact (last.trans same).symm ▸ .refl _
  · exact congrArg Lock.standing (last.trans same)

theorem notices_cancelLock (opened : ns.dispatcher.closed = false) (known : l < ns.locks.size)
    (placed : (ns.lock l).resource < ns.resources.size) (other : k ≠ l)
    (arrived : (ns.lock k).state ≠ .enqueued) :
    ∃ told asked, Notices ns (ns.cancelLock l) k told asked := by
  unfold cancelLock
  cases marked : ns.mark? l with
  | none => exact ⟨[], [], .refl ns k⟩
  | some ns₁ =>
    obtain ⟨-, rfl⟩ := mark?_eq marked
    have lock := ns.lock_modifyLock (fun _ => (ns.lock l).enter .canceling) l
    have self : ((ns.modifyLock l fun _ => (ns.lock l).enter .canceling).lock l).resource =
        (ns.lock l).resource := by
      rw [lock, if_pos ⟨rfl, known⟩]
      rfl
    have same := (lock k).trans (if_neg fun both => other both.1.symm)
    have size : (ns.modifyLock l fun _ => (ns.lock l).enter .canceling).resources.size =
        ns.resources.size := rfl
    have opened' : (ns.modifyLock l fun _ => (ns.lock l).enter .canceling).dispatcher.closed =
        false := opened
    dsimp only
    rw [self]
    generalize ns.modifyLock l _ = ns₁ at same size opened' ⊢
    obtain ⟨told, asked, left⟩ := notices_leave (l := l) opened' (size ▸ placed) other
      (same ▸ arrived)
    exact ⟨told, asked, (left.release _).before (same ▸ .refl _) (congrArg Lock.state same)⟩

/-! ### Asking what is cached -/

/-- Whoever is asked for a glimpse stands as before, and is asked once for each entry. -/
theorem sent_ask (opened : ns.dispatcher.closed = false) (held : r < ns.resources.size)
    (requester : Owner) (heard : ∀ e ∈ (ns.resource r).queues.granted, e.claim.id = k →
      k < ns.locks.size ∧ (ns.lock k).suppressed = false ∧ (ns.lock k).state.leaving = false) :
    (ns.lock k).Sent ((ns.ask r requester).2.lock k)
        (((ns.resource r).queues.peeked requester k).map fun e => .peek (ns.lock k) e.mode requester) ∧
      ((ns.ask r requester).2.lock k).state = (ns.lock k).state := by
  have sent := (ns.arbiter r).glimpse_posts requester heard
  have same := alike_ask held requester
  unfold ask at same ⊢
  generalize (ns.arbiter r).glimpse requester = answer at sent same ⊢
  obtain ⟨a, n⟩ := answer
  obtain ⟨scheduled, pending, after, kept⟩ := ns.lock_conclude r a k
  obtain rfl := kept opened
  dsimp only at sent ⊢
  refine ⟨?_, (congrArg Lock.state (same.lock k) :)⟩
  rw [after]
  exact ⟨sent.claim, sent.key, sent.suppressed, sent.pending⟩

end Namespace
end LockManager
