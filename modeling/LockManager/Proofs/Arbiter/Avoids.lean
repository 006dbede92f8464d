import LockManager.Proofs.Arbiter.Sent

set_option autoImplicit false

/-!
Deciding on a resource leaves alone whoever has no entry there: the lock, and that it has none.
-/

namespace LockManager
namespace Arbiter

variable {a a' a'' : Arbiter} {k l : LockId}

/-- The lock `k` and its entries have been left alone. -/
structure Avoids (k : LockId) (a a' : Arbiter) : Prop where
  lock : a'.lock k = a.lock k
  own : a'.queues.of k = a.queues.of k

namespace Avoids

theorem refl (k : LockId) (a : Arbiter) : Avoids k a a := ⟨rfl, rfl⟩

theorem trans (first : Avoids k a a') (second : Avoids k a' a'') : Avoids k a a'' :=
  ⟨second.lock.trans first.lock, second.own.trans first.own⟩

theorem modifyLock (a : Arbiter) (f : Lock → Lock) (other : k ≠ l) :
    Avoids k a (a.modifyLock l f) := by
  refine ⟨?_, rfl⟩
  rw [lock_modifyLock, if_neg fun both => other both.1.symm]

theorem modifyQueues (a : Arbiter) {f : Queues → Queues} (same : a.queues.SameBut l (f a.queues))
    (other : k ≠ l) : Avoids k a (a.modifyQueues f) :=
  ⟨rfl, same k other⟩

theorem notify (a : Arbiter) (n : Notification) (other : k ≠ l) : Avoids k a (a.notify l n) := by
  refine ⟨?_, congrArg (·.of k) (a.queues_notify l n)⟩
  rw [lock_notify, if_neg fun all => other all.1.1.symm]

theorem enter {mode : Mode} {tell : Bool} (entered : a.enter? l mode tell = some a')
    (other : k ≠ l) : Avoids k a a' := by
  obtain ⟨-, -, rfl⟩ := enter?_eq entered
  have held := modifyLock a (fun _ => ((a.lock l).enter .granted).hold mode) other
  cases tell with
  | true => exact held.trans (notify _ _ other)
  | false => exact held

theorem grant (a : Arbiter) (claim : Claim) (mode : Mode) (tell : Bool) (other : k ≠ claim.id) :
    Avoids k a (a.grant claim mode tell) := by
  unfold Arbiter.grant
  split
  · next entered =>
    refine (enter entered other).trans (modifyQueues _ ?_ other)
    exact Queues.sameBut_addGranted _ rfl
  · exact refl k a

theorem convert {claim : Claim} {mode : Mode} {tell : Bool}
    (converted : a.convert? claim mode tell = some a') (other : k ≠ claim.id) : Avoids k a a' := by
  obtain ⟨entered, granted, rfl⟩ := Option.map_eq_some_iff.mp converted
  exact (enter granted other).trans (modifyQueues _ (Queues.sameBut_setGrantedMode _ _ _) other)

theorem ask (a : Arbiter) (claim : Claim) (mode : Mode) {e : Entry} (other : k ≠ e.claim.id) :
    Avoids k a (a.ask claim mode e) := by
  unfold Arbiter.ask
  dsimp only
  split
  · exact refl k a
  · exact (notify a _ other).trans (modifyLock _ _ other)

/-- A loop over entries, none of which is the lock's. -/
theorem foldl {f : Arbiter → Entry → Arbiter} {es : List Entry}
    (each : ∀ a, ∀ e ∈ es, a.queues.of k = {} → Avoids k a (f a e)) (a : Arbiter)
    (none : a.queues.of k = {}) : Avoids k a (es.foldl f a) := by
  induction es generalizing a with
  | nil => exact refl k a
  | cons e es ih =>
    have first := each a e List.mem_cons_self none
    exact first.trans (ih (fun a x later => each a x (List.mem_cons_of_mem e later)) _
      (first.own.trans none))

theorem ne_of_granted {q : Queues} (none : q.of k = {}) {e : Entry} (inside : e ∈ q.granted) :
    k ≠ e.claim.id :=
  Ne.symm (Queues.not_mem_of_empty none (Queues.mem_entries.mpr (.inl (.inl inside))))

theorem ne_of_converting {q : Queues} (none : q.of k = {}) {e : Entry}
    (inside : e ∈ q.converting) : k ≠ e.claim.id :=
  Ne.symm (Queues.not_mem_of_empty none (Queues.mem_entries.mpr (.inl (.inr inside))))

theorem ne_of_waiting {q : Queues} (none : q.of k = {}) {e : Entry} (inside : e ∈ q.waiting) :
    k ≠ e.claim.id :=
  Ne.symm (Queues.not_mem_of_empty none (Queues.mem_entries.mpr (.inr inside)))

theorem recordBypass (none : a.queues.of k = {}) (claim : Claim) (mode : Mode) :
    Avoids k a (a.recordBypass claim mode) := by
  refine foldl (fun b e chosen _ => modifyLock b _ ?_) a none
  rcases List.mem_append.mp (List.mem_of_mem_filter chosen) with converts | waits
  · exact ne_of_converting none converts
  · exact ne_of_waiting none ((List.takeWhile_sublist _).subset waits)

theorem askHolders (none : a.queues.of k = {}) (claim : Claim) (mode : Mode) :
    Avoids k a (a.askHolders claim mode) :=
  foldl (fun b _ chosen _ => ask b claim mode (ne_of_granted none (List.mem_of_mem_filter chosen)))
    a none

theorem retryConversion (a : Arbiter) {e : Entry} (other : k ≠ e.claim.id) :
    Avoids k a (a.retryConversion e) := by
  unfold Arbiter.retryConversion
  split
  · exact refl k a
  · have dropped : Avoids k a (a.modifyQueues (·.dropConverting e.claim.id)) :=
      modifyQueues a (Queues.sameBut_dropConverting _ _) other
    dsimp only
    cases converted : (a.modifyQueues (·.dropConverting e.claim.id)).convert? e.claim e.mode true
      with
    | none => exact dropped
    | some b => exact dropped.trans (convert converted other)

theorem retryWaiter (none : a.queues.of k = {}) {e : Entry} (other : k ≠ e.claim.id) :
    Avoids k a (a.retryWaiter e) := by
  unfold Arbiter.retryWaiter
  split
  · exact refl k a
  · have dropped : Avoids k a (a.modifyQueues (·.dropWaiting e.claim.id)) :=
      modifyQueues a (Queues.sameBut_dropWaiting _ _) other
    refine (dropped.trans (recordBypass (dropped.own.trans none) e.claim e.mode)).trans ?_
    exact grant _ _ _ _ other

theorem askFor (none : a.queues.of k = {}) (e : Entry) : Avoids k a (a.askFor e) := by
  unfold Arbiter.askFor
  split
  · exact refl k a
  · exact askHolders none _ _

/-- Looking at a resource again leaves alone whoever has no entry there. -/
theorem reprocess (none : a.queues.of k = {}) : Avoids k a a.reprocess := by
  have converted : Avoids k a (a.queues.converting.foldl Arbiter.retryConversion a) :=
    foldl (fun b e inside _ => retryConversion b (ne_of_converting none inside)) a none
  unfold Arbiter.reprocess
  dsimp only
  generalize a.queues.converting.foldl Arbiter.retryConversion a = b at converted ⊢
  have none' := converted.own.trans none
  have served : Avoids k b (b.queues.waiting.foldl Arbiter.retryWaiter b) :=
    foldl (fun c e inside still => retryWaiter still (ne_of_waiting none' inside)) b none'
  generalize b.queues.waiting.foldl Arbiter.retryWaiter b = c at served ⊢
  have none'' := served.own.trans none'
  exact (converted.trans served).trans (foldl (fun d e _ still => askFor still e) c none'')

/-- Likewise when a lock comes to the resource, apart from that lock. -/
theorem receive (none : a.queues.of k = {}) {claim : Claim} (mode : Mode) (other : k ≠ claim.id) :
    Avoids k a (a.receive claim mode) := by
  rcases a.receive_eq claim mode with same | ⟨-, same⟩ | same <;> rw [same]
  · exact (recordBypass none claim mode).trans (grant _ _ _ _ other)
  · have waits : Avoids k a ((a.modifyLock claim.id fun _ =>
        (a.lock claim.id).enter .waiting).modifyQueues (·.addWaiting ⟨claim, mode⟩)) :=
      (modifyLock a _ other).trans (modifyQueues _ (Queues.sameBut_addWaiting _ rfl) other)
    exact waits.trans (askHolders (waits.own.trans none) _ _)
  · exact refl k a

end Avoids

end Arbiter
end LockManager
