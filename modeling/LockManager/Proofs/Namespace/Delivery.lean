import LockManager.Proofs.Arbiter.Messages
import LockManager.Proofs.Namespace

set_option autoImplicit false

/-!
The dispatcher's books. A lock is scheduled while the dispatcher has it, in its queue or with a
worker, and the dispatcher has it once. Whoever sends messages to a lock sees to it that the
dispatcher has the lock; a worker lets go of it only when there are none left.
-/

namespace LockManager

/-- What concerns the messages of a lock. -/
structure Outbox where
  pending : List Notification
  scheduled : Bool
  suppressed : Bool
  leaving : Bool

/-- The lock is suppressed or leaving. -/
def Outbox.Muted (x : Outbox) : Prop := x.suppressed = true ∨ x.leaving = true

def Lock.outbox (x : Lock) : Outbox :=
  { pending := x.pending, scheduled := x.scheduled, suppressed := x.suppressed
    leaving := x.state.leaving }

/-- What concerns messages in a namespace. -/
structure Mail where
  workers : Nat
  dispatcher : Dispatcher
  outbox : LockId → Outbox

def Namespace.mail (ns : Namespace) : Mail :=
  { workers := ns.config.workers
    dispatcher := ns.dispatcher
    outbox := fun l => (ns.lock l).outbox }

namespace Dispatcher

/-- The locks that are being worked on. -/
def busy (d : Dispatcher) : List LockId := d.deliveries.map (·.lock)

/-- The locks that the dispatcher has. -/
def engaged (d : Dispatcher) : List LockId := d.queue ++ d.busy

end Dispatcher

namespace Mail

/-- The dispatcher's books are in order, apart from the locks in `hands`, which it has taken up, and
those `touched`, which it has not been told of yet. -/
structure Delivering (m : Mail) (hands touched : List LockId) : Prop where
  once : (m.dispatcher.engaged ++ hands).Nodup
  scheduled : ∀ l, (m.outbox l).scheduled = true ↔ l ∈ m.dispatcher.engaged ++ hands
  outstanding : m.dispatcher.outstanding = (m.dispatcher.engaged ++ hands).length
  workers : m.dispatcher.deliveries.length ≤ m.workers
  attended : ∀ l, (m.outbox l).pending ≠ [] → (m.outbox l).scheduled = true ∨ l ∈ touched

variable {m m' : Mail} {hands touched : List LockId}

namespace Delivering

/-- Locks have changed hands. -/
theorem pass {hands' : List LockId} (d : m.Delivering hands touched)
    (same : (m'.dispatcher.engaged ++ hands').Perm (m.dispatcher.engaged ++ hands))
    (outstanding : m'.dispatcher.outstanding = m.dispatcher.outstanding)
    (workers : m'.dispatcher.deliveries.length ≤ m'.workers)
    (scheduled : ∀ l, (m'.outbox l).scheduled = (m.outbox l).scheduled)
    (pending : ∀ l, (m'.outbox l).pending ≠ [] → (m.outbox l).pending ≠ []) :
    m'.Delivering hands' touched := by
  refine ⟨same.nodup_iff.mpr d.once, fun l => ?_, ?_, workers, fun l some => ?_⟩
  · rw [scheduled, d.scheduled, same.mem_iff]
  · rw [outstanding, d.outstanding, same.length_eq]
  · rw [scheduled]
    exact d.attended l (pending l some)

/-- The dispatcher is told of a lock that it does not have. -/
theorem enlist {l : LockId} (d : m.Delivering hands (l :: touched))
    (free : (m.outbox l).scheduled = false) (workers : m'.workers = m.workers)
    (queue : m'.dispatcher.queue = m.dispatcher.queue ++ [l])
    (deliveries : m'.dispatcher.deliveries = m.dispatcher.deliveries)
    (outstanding : m'.dispatcher.outstanding = m.dispatcher.outstanding + 1)
    (self : (m'.outbox l).scheduled = true)
    (others : ∀ k, k ≠ l → m'.outbox k = m.outbox k) : m'.Delivering hands touched := by
  have absent : l ∉ m.dispatcher.engaged ++ hands := by
    rw [← d.scheduled, free]
    exact Bool.false_ne_true
  have same : (m'.dispatcher.engaged ++ hands).Perm (l :: (m.dispatcher.engaged ++ hands)) := by
    simp only [Dispatcher.engaged, Dispatcher.busy, queue, deliveries, List.append_assoc]
    exact List.perm_middle
  refine ⟨same.nodup_iff.mpr (List.nodup_cons.mpr ⟨absent, d.once⟩), fun k => ?_, ?_, ?_,
    fun k some => ?_⟩
  · rw [same.mem_iff, List.mem_cons]
    by_cases here : k = l
    · exact iff_of_true (here ▸ self) (.inl here)
    · rw [others k here, d.scheduled, or_iff_right here]
  · rw [outstanding, same.length_eq, d.outstanding, List.length_cons]
  · rw [deliveries, workers]
    exact d.workers
  · by_cases here : k = l
    · exact .inl (here ▸ self)
    · rw [others k here] at some ⊢
      exact (d.attended k some).imp_right fun noted => (List.mem_cons.mp noted).resolve_left here

/-- A lock that the dispatcher has been told of is attended to. -/
theorem told {l : LockId} (d : m.Delivering hands (l :: touched))
    (attended : (m.outbox l).pending ≠ [] → (m.outbox l).scheduled = true) :
    m.Delivering hands touched := by
  refine ⟨d.once, d.scheduled, d.outstanding, d.workers, fun k some => ?_⟩
  rcases d.attended k some with scheduled | noted
  · exact .inl scheduled
  · rcases List.mem_cons.mp noted with rfl | later
    · exact .inl (attended some)
    · exact .inr later

/-- A worker is done with a lock that has no messages left. -/
theorem discharge {l : LockId} (d : m.Delivering (l :: hands) touched)
    (workers : m'.workers = m.workers) (queue : m'.dispatcher.queue = m.dispatcher.queue)
    (deliveries : m'.dispatcher.deliveries = m.dispatcher.deliveries)
    (outstanding : m'.dispatcher.outstanding = m.dispatcher.outstanding - 1)
    (self : (m'.outbox l).scheduled = false ∧ (m'.outbox l).pending = [])
    (others : ∀ k, k ≠ l → m'.outbox k = m.outbox k) : m'.Delivering hands touched := by
  have engaged : m'.dispatcher.engaged = m.dispatcher.engaged := by
    simp only [Dispatcher.engaged, Dispatcher.busy, queue, deliveries]
  have same : (m.dispatcher.engaged ++ l :: hands).Perm (l :: (m.dispatcher.engaged ++ hands)) :=
    List.perm_middle
  obtain ⟨absent, once⟩ := List.nodup_cons.mp (same.nodup_iff.mp d.once)
  refine ⟨engaged.symm ▸ once, fun k => ?_, ?_, ?_, fun k some => ?_⟩
  · rw [engaged]
    by_cases here : k = l
    · rw [here, self.1]
      exact iff_of_false Bool.false_ne_true absent
    · rw [others k here, d.scheduled, same.mem_iff, List.mem_cons, or_iff_right here]
  · rw [outstanding, d.outstanding, same.length_eq, engaged, List.length_cons, Nat.add_sub_cancel]
  · rw [deliveries, workers]
    exact d.workers
  · by_cases here : k = l
    · exact absurd (here ▸ self.2) some
    · rw [others k here] at some ⊢
      exact d.attended k some

/-- With nothing outstanding the dispatcher has no lock, and no messages are left. -/
theorem idle (d : m.Delivering [] []) (none : m.dispatcher.outstanding = 0) :
    m.dispatcher.queue = [] ∧ m.dispatcher.deliveries = [] ∧ ∀ l, (m.outbox l).pending = [] := by
  have empty : m.dispatcher.engaged ++ [] = [] :=
    List.eq_nil_of_length_eq_zero (d.outstanding.symm.trans none)
  obtain ⟨queue, busy⟩ := List.append_eq_nil_iff.mp ((List.append_nil _).symm.trans empty)
  refine ⟨queue, List.map_eq_nil_iff.mp busy, fun l => ?_⟩
  by_contra some
  have engaged := (d.attended l some).resolve_right List.not_mem_nil
  rw [d.scheduled, empty] at engaged
  cases engaged

end Delivering

end Mail

namespace Namespace

variable {ns ns' : Namespace} {hands touched : List LockId} {l : LockId}

/-! ### One lock -/

theorem lock_modifyLock (f : Lock → Lock) (l k : LockId) : (ns.modifyLock l f).lock k =
    if l = k ∧ l < ns.locks.size then f (ns.lock k) else ns.lock k :=
  Arena.get_modify ..

theorem lock_beyond (beyond : ¬l < ns.locks.size) : ns.lock l = default :=
  ns.locks.get_beyond beyond

theorem known_of_scheduled (scheduled : (ns.lock l).scheduled = true) : l < ns.locks.size := by
  by_contra beyond
  rw [lock_beyond beyond] at scheduled
  cases scheduled

theorem known_of_pending (some : (ns.lock l).pending ≠ []) : l < ns.locks.size := by
  by_contra beyond
  rw [lock_beyond beyond] at some
  exact some rfl

theorem outbox_self (known : l < ns.locks.size) (f : Lock → Lock) :
    (ns.modifyLock l f).mail.outbox l = (f (ns.lock l)).outbox :=
  congrArg Lock.outbox ((ns.lock_modifyLock f l l).trans (if_pos ⟨rfl, known⟩))

theorem outbox_other (f : Lock → Lock) {k : LockId} (other : k ≠ l) :
    (ns.modifyLock l f).mail.outbox k = ns.mail.outbox k :=
  congrArg Lock.outbox ((ns.lock_modifyLock f l k).trans (if_neg fun both => other both.1.symm))

theorem mail_modifyLock {f : Lock → Lock} (same : ∀ x, (f x).outbox = x.outbox) :
    (ns.modifyLock l f).mail = ns.mail := by
  have outbox : ∀ k, ((ns.modifyLock l f).lock k).outbox = (ns.lock k).outbox := by
    intro k
    rw [lock_modifyLock]
    split
    · exact same _
    · rfl
  simp only [mail, outbox]
  rfl

/-! ### The dispatcher -/

theorem delivering_schedule (d : ns.mail.Delivering hands (l :: touched)) :
    (ns.schedule l).mail.Delivering hands touched := by
  unfold schedule
  dsimp only
  split
  · next idle =>
    apply d.told
    intro (some : (ns.lock l).pending ≠ [])
    rw [List.isEmpty_eq_false_iff.mpr some, Bool.or_false] at idle
    exact idle
  · next work =>
    simp only [Bool.or_eq_true, not_or, Bool.not_eq_true] at work
    obtain ⟨free, some⟩ := work
    have known : l < ns.locks.size := known_of_pending (List.isEmpty_eq_false_iff.mp some)
    split
    · have self := outbox_self known ({ · with pending := [] })
      have others (k : LockId) (other : k ≠ l) :
          (ns.modifyLock l ({ · with pending := [] })).mail.outbox k = ns.mail.outbox k :=
        outbox_other _ other
      have dropped : (ns.modifyLock l ({ · with pending := [] })).mail.Delivering hands
          (l :: touched) := by
        refine d.pass (.refl _) rfl d.workers (fun k => ?_) fun k => ?_ <;>
          by_cases here : k = l
        · rw [here, self]
          rfl
        · rw [others k here]
        · rw [here, self]
          exact absurd rfl
        · rw [others k here]
          exact id
      apply dropped.told
      rw [self]
      exact absurd rfl
    · refine d.enlist free rfl rfl rfl rfl ?_ fun k other => outbox_other _ other
      exact congrArg Outbox.scheduled (outbox_self known ({ · with scheduled := true }))

theorem delivering_dispatch (d : ns.mail.Delivering hands touched) :
    (ns.dispatch touched).mail.Delivering hands [] := by
  unfold dispatch
  induction touched generalizing ns with
  | nil => exact d
  | cons l touched ih => exact ih (delivering_schedule d)

/-- What becomes of a lock that a worker has taken up: its next message is handed over, or it is
done with. -/
theorem drain_cases (ns : Namespace) (l : LockId) :
    (∃ n rest, (ns.lock l).pending = n :: rest ∧ ¬(ns.lock l).Muted ∧
      ns.drain l = (ns.modifyLock l ({ · with pending := rest })).modifyDispatcher fun d =>
        { d with
          deliveries := d.deliveries ++ [{ lock := l, notification := n, begun := ns.clock }] }) ∨
    ((ns.lock l).pending = [] ∨ (ns.lock l).Muted) ∧
      ns.drain l = (ns.modifyLock l ({ · with pending := [], scheduled := false })).modifyDispatcher
        fun d => { d with outstanding := d.outstanding - 1 } := by
  unfold drain Lock.Muted
  dsimp only
  cases muted : (ns.lock l).suppressed || (ns.lock l).state.leaving with
  | true =>
    simp only [if_true]
    exact .inr ⟨.inr (Bool.or_eq_true _ _ ▸ muted), trivial⟩
  | false =>
    have open' : ¬((ns.lock l).suppressed = true ∨ (ns.lock l).state.leaving = true) := by
      rw [← Bool.or_eq_true, muted]
      exact Bool.false_ne_true
    simp only [Bool.false_eq_true, if_false]
    cases pending : (ns.lock l).pending with
    | nil => exact .inr ⟨.inl rfl, rfl⟩
    | cons n rest => exact .inl ⟨n, rest, rfl, open', rfl⟩

theorem delivering_drain (d : ns.mail.Delivering (l :: hands) touched)
    (room : ns.dispatcher.deliveries.length < ns.config.workers) :
    (ns.drain l).mail.Delivering hands touched := by
  have known : l < ns.locks.size := by
    apply known_of_scheduled
    exact (d.scheduled l).mpr (List.mem_append_right _ List.mem_cons_self)
  rcases ns.drain_cases l with ⟨n, rest, before, -, after⟩ | ⟨-, after⟩
  · rw [after]
    have self := outbox_self known ({ · with pending := rest })
    have others (k : LockId) (other : k ≠ l) :
        (ns.modifyLock l ({ · with pending := rest })).mail.outbox k = ns.mail.outbox k :=
      outbox_other _ other
    refine d.pass ?_ rfl ?_ (fun k => ?_) fun k => ?_
    · simp only [Dispatcher.engaged, Dispatcher.busy, mail, modifyDispatcher, modifyLock,
        List.map_append, List.map_cons, List.map_nil, List.append_assoc, List.singleton_append]
      exact .refl _
    · simp only [mail, modifyDispatcher, modifyLock, List.length_append, List.length_singleton]
      exact room
    · by_cases here : k = l
      · rw [here]
        exact (congrArg Outbox.scheduled self :)
      · exact congrArg Outbox.scheduled (others k here)
    · by_cases here : k = l
      · intro _ none
        rw [here, show (ns.mail.outbox l).pending = n :: rest from before] at none
        cases none
      · exact fun some => congrArg Outbox.pending (others k here) ▸ some
  · rw [after]
    refine d.discharge rfl rfl rfl rfl ?_ fun k other => outbox_other _ other
    have self := outbox_self known ({ · with pending := [], scheduled := false })
    exact ⟨congrArg Outbox.scheduled self, congrArg Outbox.pending self⟩

theorem delivering_takeUp (d : ns.mail.Delivering [] []) (taken : ns.takeUp? = some ns') :
    ns'.mail.Delivering [] [] := by
  obtain ⟨room, l, rest, queue, rfl⟩ := takeUp?_eq taken
  have passed : (ns.modifyDispatcher ({ · with queue := rest })).mail.Delivering [l] [] := by
    refine d.pass ?_ rfl d.workers (fun _ => rfl) fun _ => id
    have before : ns.mail.dispatcher.engaged = l :: rest ++ ns.dispatcher.busy :=
      congrArg (· ++ ns.dispatcher.busy) queue
    rw [before, List.append_nil, List.cons_append]
    exact List.perm_append_singleton l _
  exact delivering_drain passed room

theorem delivering_finish (d : ns.mail.Delivering [] []) {delivery : Delivery}
    (busy : delivery ∈ ns.dispatcher.deliveries) : (ns.finish delivery).mail.Delivering [] [] := by
  have fewer : (ns.dispatcher.deliveries.erase delivery).length < ns.config.workers := by
    rw [List.length_erase_of_mem busy]
    have some := List.length_pos_of_mem busy
    have all : ns.dispatcher.deliveries.length ≤ ns.config.workers := d.workers
    omega
  have passed : (ns.modifyDispatcher fun x =>
      { x with deliveries := x.deliveries.erase delivery }).mail.Delivering [delivery.lock] [] := by
    refine d.pass ?_ rfl (Nat.le_of_lt fewer) (fun _ => rfl) fun _ => id
    have same := (List.perm_cons_erase busy).symm.map (·.lock)
    rw [List.append_nil]
    calc
      (ns.dispatcher.queue ++ (ns.dispatcher.deliveries.erase delivery).map (·.lock)) ++
            [delivery.lock]
      _ = ns.dispatcher.queue ++
            ((ns.dispatcher.deliveries.erase delivery).map (·.lock) ++ [delivery.lock]) :=
        List.append_assoc ..
      List.Perm _ (ns.dispatcher.queue ++ ns.dispatcher.deliveries.map (·.lock)) :=
        ((List.perm_append_singleton _ _).trans same).append_left _
  exact delivering_drain passed fewer

end Namespace
end LockManager
