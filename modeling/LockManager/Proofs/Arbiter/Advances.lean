import LockManager.Proofs.Arbiter.Reprocess
import LockManager.Proofs.Course

set_option autoImplicit false

/-!
Every attempt to take an edge of the life cycle while the queues of a resource are in hand, in the order in
which they are made. As long as the ledger is coherent none of them is refused.
-/

namespace LockManager

namespace Arbiter

/-- What a grant attempts, and the completion of a conversion. -/
def granting (a : Arbiter) (l : LockId) : Advance := ⟨l, a.lock l, .granted⟩

def conversionAdvances (a : Arbiter) (e : Entry) : List Advance :=
  if (a.lock e.claim.id).state.leaving || a.opposed e.claim e.mode then []
  else [(a.modifyQueues (·.dropConverting e.claim.id)).granting e.claim.id]

def waiterAdvances (a : Arbiter) (e : Entry) : List Advance :=
  if (a.lock e.claim.id).state.leaving || !a.grantable e.claim e.mode then []
  else
    [((a.modifyQueues (·.dropWaiting e.claim.id)).recordBypass e.claim e.mode).granting e.claim.id]

/-- The attempts of a pass that deals with each entry by `retry`. -/
def passAdvances (retry : Arbiter → Entry → Arbiter) (advances : Arbiter → Entry → List Advance) :
    List Entry → Arbiter → List Advance
  | [], _ => []
  | e :: es, a => advances a e ++ passAdvances retry advances es (retry a e)

def reprocessAdvances (a : Arbiter) : List Advance :=
  let converted := a.queues.converting.foldl retryConversion a
  passAdvances retryConversion conversionAdvances a.queues.converting a ++
    passAdvances retryWaiter waiterAdvances converted.queues.waiting converted

def receiveAdvances (a : Arbiter) (claim : Claim) (mode : Mode) : List Advance :=
  if a.grantable claim mode then [(a.recordBypass claim mode).granting claim.id]
  else [⟨claim.id, a.lock claim.id, .waiting⟩]

/-- How often a lock is passed over has nothing to do with its course. -/
theorem station_recordBypass (a : Arbiter) (claim : Claim) (mode : Mode) (l : LockId) :
    ((a.recordBypass claim mode).lock l).station = (a.lock l).station := by
  unfold recordBypass
  generalize List.filter _ _ = es
  induction es generalizing a with
  | nil => rfl
  | cons e es ih =>
    have step : ((a.modifyLock e.claim.id Lock.passOver).lock l).station =
        (a.lock l).station := by
      unfold lock modifyLock
      rw [Arena.get_modify]
      split <;> rfl
    exact (ih (a.modifyLock e.claim.id Lock.passOver)).trans step

end Arbiter

namespace Ledger

def stations (b : Ledger) : Stations := ⟨b.size, fun l => (b.lock l).station⟩

variable {b b' : Ledger} {r : ResourceId}

theorem stations_of_passes (passed : Passes r b b') : b'.stations = b.stations := by
  have same : ∀ l, (b'.lock l).station = (b.lock l).station := by
    intro l
    obtain ⟨n, lock⟩ := passed.lock l
    rw [lock]
    rfl
  simp only [stations, passed.size, same]

/-- A lock that is there takes an edge, and its entries change with it. -/
theorem leads_seat {l : LockId} {found x : Lock} {s : LockState} (q : Queues) (known : l < b.size)
    (current : (b.lock l).station = found.station) (edge : (b.lock l).state.allows s = true)
    (entered : x.station = ((b.lock l).enter s).station) :
    b.stations.Leads [⟨l, found, s⟩] (b.seat l x q).stations := by
  have state : (b.lock l).state = found.state := congrArg Station.state current
  have history : (b.lock l).history = found.history := congrArg Station.history current
  have taken : Advance.Taken ⟨l, found, s⟩ := by
    rw [state] at edge
    exact edge
  have after : x.station = (Advance.after ⟨l, found, s⟩).station := by
    rw [entered, Advance.after_of_taken taken, Lock.station, Lock.enter, history]
    rfl
  refine .single ⟨known, current, fun _ => taken⟩ ?_
  simp only [stations, seat, Stations.advance, Stations.mk.injEq, true_and, ← after]
  funext k
  by_cases here : k = l
  · rw [here, Function.update_self, Function.update_self]
  · rw [Function.update_of_ne here, Function.update_of_ne here]

/-- The same for a lock that comes past others. -/
theorem leads_seat_of_passes (passed : Passes r b b') {l : LockId} {found x : Lock}
    {s : LockState} (q : Queues) (known : l < b.size)
    (current : (b.lock l).station = found.station) (edge : (b.lock l).state.allows s = true)
    (entered : x.station = ((b'.lock l).enter s).station) :
    b.stations.Leads [⟨l, found, s⟩] (b'.seat l x q).stations := by
  have same := stations_of_passes passed
  have still : (b'.lock l).station = (b.lock l).station := congrFun (congrArg Stations.of same) l
  have state : (b'.lock l).state = (b.lock l).state := congrArg Station.state still
  rw [← same]
  exact leads_seat q (passed.size ▸ known) (still.trans current) (state ▸ edge) entered

end Ledger

namespace Arbiter

open Ledger (Converting Serving)

variable {a : Arbiter} {r : ResourceId} {others : ResourceId → Queues}

theorem leads_retryConversion (c : (a.ledger r others).Coherent) {e : Entry}
    (inside : e ∈ a.queues.converting) :
    (a.ledger r others).stations.Leads (a.conversionAdvances e)
      ((a.retryConversion e).ledger r others).stations := by
  have place : e ∈ ((a.ledger r others).queues r).converting := by
    rw [ledger_queues]
    exact inside
  unfold conversionAdvances
  rcases retryConversion_cases c inside with ⟨kept, same⟩ | ⟨stays, free, done⟩
  · have stop : ((a.lock e.claim.id).state.leaving || a.opposed e.claim e.mode) = true :=
      Bool.or_eq_true_iff.mpr (kept.imp_right List.any_eq_true.mpr)
    rw [if_pos stop, same]
    exact .nil _
  · obtain ⟨state, same, -⟩ := c.of_converting place stays
    have entry : e ∈ ((a.ledger r others).queues r).entries :=
      Queues.mem_entries.mpr (.inl (.inr place))
    have claim : (a.lock e.claim.id).claim = e.claim := (congrArg Entry.claim same).symm
    rw [ledger_opposed (c.bound entry), claim] at free
    have go : ¬((a.lock e.claim.id).state.leaving || a.opposed e.claim e.mode) = true := by
      simp only [free, Bool.or_false, Bool.not_eq_true]
      exact stays
    rw [if_neg go, done]
    exact Ledger.leads_seat _ (c.known r e entry) rfl
      (LockState.allows_granted_iff.mpr (.inr (.inr state))) rfl

theorem leads_retryWaiter (c : (a.ledger r others).Coherent) {e : Entry}
    (inside : e ∈ a.queues.waiting) :
    (a.ledger r others).stations.Leads (a.waiterAdvances e)
      ((a.retryWaiter e).ledger r others).stations := by
  have place : e ∈ ((a.ledger r others).queues r).waiting := by
    rw [ledger_queues]
    exact inside
  have ordered : a.queues.Ordered := a.ledger_queues r others ▸ c.ordered r
  unfold waiterAdvances
  rcases retryWaiter_cases c inside with ⟨kept, same⟩ | ⟨stays, free, passed, done⟩
  · have stop : ((a.lock e.claim.id).state.leaving || !a.grantable e.claim e.mode) = true := by
      refine Bool.or_eq_true_iff.mpr (kept.imp_right fun blocked => ?_)
      rw [(grantable_eq_false_iff ordered).mpr blocked]
      rfl
    rw [if_pos stop, same]
    exact .nil _
  · obtain ⟨state, -⟩ := c.of_waiting place stays
    have known := c.known r e (Queues.mem_entries.mpr (.inr place))
    have go : ¬((a.lock e.claim.id).state.leaving || !a.grantable e.claim e.mode) = true := by
      rw [Bool.or_eq_true_iff, not_or, Bool.not_eq_true, Bool.not_eq_true, Bool.not_eq_false']
      exact ⟨stays, by_contra fun no =>
        free ((grantable_eq_false_iff ordered).mp (Bool.not_eq_true _ ▸ no))⟩
    have station := station_recordBypass (a.modifyQueues (·.dropWaiting e.claim.id)) e.claim
      e.mode e.claim.id
    rw [if_neg go, done]
    exact Ledger.leads_seat_of_passes passed _ known station.symm
      (LockState.allows_granted_iff.mpr (.inr (.inl state))) rfl

theorem leads_conversions (es : List Entry) (a : Arbiter)
    (left : (a.ledger r others).Converting r es) :
    (a.ledger r others).stations.Leads (passAdvances retryConversion conversionAdvances es a)
      ((es.foldl retryConversion a).ledger r others).stations := by
  induction es generalizing a with
  | nil => exact .nil _
  | cons e es ih =>
    have inside := left.pending e List.mem_cons_self
    rw [ledger_queues] at inside
    refine (leads_retryConversion left.coherent inside).append (ih _ ?_)
    rcases retryConversion_cases left.coherent inside with ⟨kept, same⟩ | ⟨stays, free, done⟩
    · rw [same]
      exact left.skip (by rwa [ledger_queues])
    · rw [done]
      exact (left.complete stays free).2

theorem leads_waiters (es : List Entry) (a : Arbiter) (left : (a.ledger r others).Serving r es) :
    (a.ledger r others).stations.Leads (passAdvances retryWaiter waiterAdvances es a)
      ((es.foldl retryWaiter a).ledger r others).stations := by
  induction es generalizing a with
  | nil => exact .nil _
  | cons e es ih =>
    have inside := left.waiting e List.mem_cons_self
    rw [ledger_queues] at inside
    refine (leads_retryWaiter left.coherent inside).append (ih _ ?_)
    rcases retryWaiter_cases left.coherent inside with ⟨blocked, same⟩ | ⟨stays, free, passed, done⟩
    · rw [same]
      exact left.skip blocked
    · rw [done]
      exact (left.serve stays free passed).2

/-- Whoever is looked at again is taken on as far as there is an edge, and is not refused. -/
theorem leads_reprocess (c : (a.ledger r others).Coherent) :
    (a.ledger r others).stations.Leads a.reprocessAdvances
      (a.reprocess.ledger r others).stations := by
  have start := c.converting r
  rw [ledger_queues] at start
  have next := (convert_all a.queues.converting a start).2.serving
  rw [ledger_queues] at next
  have asked := ledger_foldl r others (f := askFor) (fun a e => ledger_askFor r others a e)
  unfold reprocess
  rw [asked]
  exact (leads_conversions _ a start).append (leads_waiters _ _ next)

/-- A lock that comes to the resource takes one edge more. -/
theorem leads_receive (c : (a.ledger r others).Coherent) {l : LockId} (known : l < a.locks.size)
    (bound : (a.lock l).resource = r) (enqueued : (a.lock l).state = .enqueued) :
    (a.ledger r others).stations.Leads
      (a.receiveAdvances (a.lock l).claim (a.lock l).requestedMode)
      ((a.receive (a.lock l).claim (a.lock l).requestedMode).ledger r others).stations := by
  have named : (a.lock l).claim.id = l := c.named l known
  have ordered : a.queues.Ordered := a.ledger_queues r others ▸ c.ordered r
  have blocked_iff : a.grantable (a.lock l).claim (a.lock l).requestedMode = false ↔
      (a.ledger r others).Blocked r ⟨(a.lock l).claim, (a.lock l).requestedMode⟩ :=
    grantable_eq_false_iff ordered
  unfold receiveAdvances
  rw [named]
  rcases receive_cases c known bound enqueued with ⟨free, passed, after⟩ | ⟨blocked, after⟩
  · have may : a.grantable (a.lock l).claim (a.lock l).requestedMode = true := by
      rw [← Bool.not_eq_false]
      exact mt blocked_iff.mp free
    have station := station_recordBypass a (a.lock l).claim (a.lock l).requestedMode l
    rw [if_pos may, after]
    exact Ledger.leads_seat_of_passes passed _ known station.symm
      (LockState.allows_granted_iff.mpr (.inl enqueued)) rfl
  · rw [blocked_iff.mpr blocked, if_neg Bool.false_ne_true, after]
    exact Ledger.leads_seat _ known rfl (LockState.allows_waiting_iff.mpr enqueued) rfl

end Arbiter
end LockManager
