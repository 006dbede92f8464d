import LockManager.Proofs.Mirror
import LockManager.Proofs.Namespace.Relays

set_option autoImplicit false

/-!
Messages between a server and its clients. A message is queued on a lock, with the transport, or in the
inbox of the client that it is for, and goes from one to the next. Nothing else comes of that or of time.
-/

namespace LockManager
namespace Namespace

variable {ns ns' ns'' : Namespace} {out : List Notification} {l : LockId}

/-- Messages have gone on, and those in `out` have left the namespace. Nothing else has changed. -/
structure Forwards (ns : Namespace) (out : List Notification) (ns' : Namespace) : Prop where
  alike : Alike ns ns'
  books : ns'.books = ns.books
  stopping : ns'.stopping = ns.stopping
  closed : ns'.dispatcher.closed = ns.dispatcher.closed
  suppressed : ∀ k, (ns'.lock k).suppressed = (ns.lock k).suppressed
  pending : ∀ k, ∀ n ∈ (ns'.lock k).pending, n ∈ (ns.lock k).pending
  sent : ∀ d ∈ ns'.dispatcher.deliveries, d ∈ ns.dispatcher.deliveries ∨
    ns.Alive d.lock ∧ d.notification ∈ (ns.lock d.lock).pending
  underway : ∀ k, ns.Alive k → ∀ n : Notification, n.handle = (ns.lock k).handle →
    (n ∈ ns'.underway (ns.lock k).handle ∨ n ∈ out ↔ n ∈ ns.underway (ns.lock k).handle)

/-- What is on its way when nothing but messages has changed. -/
theorem Resting.mem_underway_of_books (rest : ns.Resting) (books : ns'.books = ns.books)
    (alive : ns.Alive l) {n : Notification} :
    n ∈ ns'.underway (ns.lock l).handle ↔
      (∃ d ∈ ns'.dispatcher.deliveries, d.notification = n) ∨ n ∈ (ns'.lock l).pending := by
  unfold underway
  rw [handles_of_books books, rest.get?_iff.mpr ⟨alive, rfl⟩]
  simp

namespace Forwards

theorem alive (forwards : Forwards ns out ns') : ns'.Alive l ↔ ns.Alive l := by
  have retired : (ns'.lock l).retired = (ns.lock l).retired :=
    (congrArg Lock.retired (forwards.alike.lock l) :)
  unfold Alive
  rw [retired, forwards.alike.size]
  rfl

theorem claim (forwards : Forwards ns out ns') (l : LockId) : (ns'.lock l).claim = (ns.lock l).claim :=
  (congrArg Lock.claim (forwards.alike.lock l) :)

theorem handle (forwards : Forwards ns out ns') (l : LockId) :
    (ns'.lock l).handle = (ns.lock l).handle :=
  congrArg Claim.handle (forwards.claim l)

theorem standing (forwards : Forwards ns out ns') (l : LockId) :
    (ns'.lock l).standing = (ns.lock l).standing :=
  (congrArg Lock.standing (forwards.alike.lock l) :)

theorem resting (forwards : Forwards ns out ns') (rest : ns.Resting) : ns'.Resting :=
  rest.alike forwards.alike (catalog_of_books forwards.books)

theorem trans (first : Forwards ns out ns') (second : Forwards ns' [] ns'') :
    Forwards ns out ns'' := by
  refine ⟨first.alike.alike second.alike, second.books.trans first.books,
    second.stopping.trans first.stopping, second.closed.trans first.closed,
    fun k => (second.suppressed k).trans (first.suppressed k),
    fun k n later => first.pending k n (second.pending k n later), fun d busy => ?_,
    fun k alive n mine => ?_⟩
  · rcases second.sent d busy with before | ⟨alive, waited⟩
    · exact first.sent d before
    · exact .inr ⟨first.alive.mp alive, first.pending d.lock _ waited⟩
  · have later := second.underway k (first.alive.mpr alive) n (mine.trans (first.handle k).symm)
    rw [first.handle] at later
    rw [← first.underway k alive n mine, ← later]
    simp

end Forwards

/-! ### Time -/

theorem forwards_clock (ns : Namespace) (t : Nat) : Forwards ns [] { ns with clock := t } :=
  ⟨⟨rfl, rfl, Nat.le_refl _, fun _ _ => .inl⟩, rfl, rfl, rfl, fun _ => rfl, fun _ _ => id,
    fun _ => .inl, fun _ _ _ _ => or_iff_left List.not_mem_nil⟩

/-- Looking for holders that have not given way notes in their locks who has been reported. -/
theorem exists_checkTimeouts (ns : Namespace) :
    ∃ locks, ns.checkTimeouts.2 = { ns with locks } := by
  refine ns.checkTimeouts_induction (P := fun ns' => ∃ locks, ns' = { ns with locks }) ⟨_, rfl⟩ ?_
  rintro _ l ⟨locks, rfl⟩
  exact ⟨_, rfl⟩

theorem Resting.forwards_checkTimeouts (rest : ns.Resting) :
    Forwards ns [] ns.checkTimeouts.2 := by
  have alike := ns.alike_checkTimeouts
  have books := ns.books_checkTimeouts
  have mail := ns.mail_checkTimeouts
  obtain ⟨locks, after⟩ := ns.exists_checkTimeouts
  rw [after] at alike books mail ⊢
  have outbox (k : LockId) : (lock { ns with locks } k).outbox = (ns.lock k).outbox :=
    congrArg (·.outbox k) mail
  have pending (k : LockId) : (lock { ns with locks } k).pending = (ns.lock k).pending :=
    congrArg Outbox.pending (outbox k)
  refine ⟨alike, books, rfl, rfl, fun k => congrArg Outbox.suppressed (outbox k),
    fun k n => (pending k ▸ id), fun _ => .inl, fun k alive n _ => ?_⟩
  rw [rest.mem_underway_of_books books alive, rest.mem_underway alive, pending]
  exact or_iff_left List.not_mem_nil

/-! ### Messages -/

theorem Resting.forwards_queue (rest : ns.Resting) (queue : List LockId) :
    Forwards ns [] (ns.modifyDispatcher ({ · with queue })) := by
  have same : (ns.modifyDispatcher ({ · with queue })).books = ns.books := rfl
  refine ⟨ns.alike_modifyDispatcher _, same, rfl, rfl, fun _ => rfl, fun _ _ => id, fun _ => .inl,
    fun k alive n _ => ?_⟩
  rw [rest.mem_underway_of_books same alive, rest.mem_underway alive]
  exact or_iff_left List.not_mem_nil

/-- The transport has answered for a message. -/
theorem Resting.forwards_erase (rest : ns.Resting) {d : Delivery}
    (busy : d ∈ ns.dispatcher.deliveries) : Forwards ns [d.notification]
      (ns.modifyDispatcher fun x => { x with deliveries := x.deliveries.erase d }) := by
  have same : (ns.modifyDispatcher fun x =>
      { x with deliveries := x.deliveries.erase d }).books = ns.books := rfl
  refine ⟨ns.alike_modifyDispatcher _, same, rfl, rfl, fun _ => rfl, fun _ _ => id,
    fun e left => .inl (List.mem_of_mem_erase left), fun k alive n _ => ?_⟩
  rw [rest.mem_underway_of_books same alive, rest.mem_underway alive, List.mem_singleton]
  constructor
  · rintro ((⟨e, left, rfl⟩ | waits) | rfl)
    · exact .inl ⟨e, List.mem_of_mem_erase left, rfl⟩
    · exact .inr waits
    · exact .inl ⟨d, busy, rfl⟩
  · rintro (⟨e, sent, rfl⟩ | waits)
    · by_cases same : e = d
      · exact .inr (congrArg Delivery.notification same)
      · exact .inl (.inl ⟨e, (List.mem_erase_of_ne same).mpr sent, rfl⟩)
    · exact .inl (.inr waits)

/-- What a worker leaves of the messages of the lock that it has taken up. -/
theorem drain_messages (ns : Namespace) (l : LockId) :
    (ns.drain l).stopping = ns.stopping ∧
      (ns.drain l).dispatcher.closed = ns.dispatcher.closed ∧
      (∀ k, ((ns.drain l).lock k).suppressed = (ns.lock k).suppressed) ∧
      (∀ k, k ≠ l → (ns.drain l).lock k = ns.lock k) ∧
      ((∃ n rest, (ns.lock l).pending = n :: rest ∧ ¬(ns.lock l).Muted ∧
          ((ns.drain l).lock l).pending = rest ∧ (ns.drain l).dispatcher.deliveries =
            ns.dispatcher.deliveries ++ [{ lock := l, notification := n, begun := ns.clock }]) ∨
        ((ns.lock l).pending = [] ∨ (ns.lock l).Muted) ∧ ((ns.drain l).lock l).pending = [] ∧
          (ns.drain l).dispatcher.deliveries = ns.dispatcher.deliveries) := by
  have suppressed (f : Lock → Lock) (same : ∀ x, (f x).suppressed = x.suppressed) (k : LockId) :
      ((ns.modifyLock l f).lock k).suppressed = (ns.lock k).suppressed := by
    rw [lock_modifyLock]
    split
    · exact same _
    · rfl
  have others (f : Lock → Lock) (k : LockId) (other : k ≠ l) :
      (ns.modifyLock l f).lock k = ns.lock k :=
    (ns.lock_modifyLock f l k).trans (if_neg fun both => other both.1.symm)
  have self (f : Lock → Lock) (known : l < ns.locks.size) :
      (ns.modifyLock l f).lock l = f (ns.lock l) := (ns.lock_modifyLock f l l).trans (if_pos ⟨rfl, known⟩)
  rcases ns.drain_cases l with ⟨n, rest, before, heard, after⟩ | ⟨nothing, after⟩ <;> rw [after]
  · have known : l < ns.locks.size := by
      by_contra beyond
      rw [lock_beyond beyond] at before
      cases before
    exact ⟨rfl, rfl, suppressed _ fun _ => rfl, others _,
      .inl ⟨n, rest, before, heard, congrArg Lock.pending (self _ known), rfl⟩⟩
  · refine ⟨rfl, rfl, suppressed _ fun _ => rfl, others _, .inr ⟨nothing, ?_, rfl⟩⟩
    refine (congrArg Lock.pending (ns.lock_modifyLock _ l l)).trans ?_
    split
    · rfl
    · next beyond => rw [lock_beyond fun known => beyond ⟨rfl, known⟩]; rfl

/-- A live lock is not on its way out. -/
theorem Resting.leaving_eq_false (rest : ns.Resting) (alive : ns.Alive l) :
    (ns.lock l).state.leaving = false := by
  rcases rest.settled alive with ⟨state, -, -⟩ | ⟨state, -, -⟩ | ⟨state, -, -⟩ | ⟨state, -, -, -⟩ <;>
    rw [state] <;> rfl

namespace Serving

theorem forwards (serving : ns.Serving) (forwards : Forwards ns out ns') : ns'.Serving := by
  refine ⟨forwards.resting serving.resting, forwards.stopping.trans serving.running,
    forwards.closed.trans serving.opened, fun k alive => ?_, fun d busy => ?_⟩
  · obtain ⟨heard, mine, plain, upward⟩ := serving.regular k (forwards.alive.mp alive)
    have standing := forwards.standing k
    have state : (ns'.lock k).state = (ns.lock k).state := congrArg Standing.state standing
    have wanted : (ns'.lock k).requestedMode = (ns.lock k).requestedMode :=
      congrArg Standing.wanted standing
    have held : (ns'.lock k).grantedMode = (ns.lock k).grantedMode := congrArg Standing.held standing
    refine ⟨(forwards.suppressed k).trans heard, fun n waits => ?_, ?_, ?_⟩
    · rw [forwards.handle]
      exact mine n (forwards.pending k n waits)
    · rw [forwards.claim]
      exact plain
    · rw [state, wanted, held]
      exact upward
  · rw [forwards.alike.size, forwards.handle]
    rcases forwards.sent d busy with before | ⟨alive, waited⟩
    · exact serving.sent d before
    · exact ⟨alive.1, (serving.regular d.lock alive).mine _ waited⟩

/-- A worker hands over the next message of a lock, or is done with the lock. -/
theorem forwards_drain (serving : ns.Serving) (l : LockId) : Forwards ns [] (ns.drain l) := by
  have alike := ns.alike_drain l
  have books := ns.books_drain l
  obtain ⟨stopping, closed, suppressed, others, messages⟩ := ns.drain_messages l
  have there {k : LockId} (alive : ns.Alive k) {n : Notification} :=
    serving.resting.mem_underway_of_books books alive (n := n)
  have here {k : LockId} (alive : ns.Alive k) {n : Notification} :=
    serving.resting.mem_underway alive (n := n)
  generalize ns.drain l = ns' at alike books stopping closed suppressed others messages there ⊢
  rcases messages with ⟨n, rest, before, heard, left, sent⟩ | ⟨nothing, left, sent⟩
  · have alive : ns.Alive l := by
      have known : l < ns.locks.size := by
        by_contra beyond
        rw [lock_beyond beyond] at before
        cases before
      refine serving.resting.sound.alive known fun canceled => heard (.inr ?_)
      rw [canceled]
      rfl
    have own : n ∈ (ns.lock l).pending := before ▸ List.mem_cons_self
    have mine := (serving.regular l alive).mine n own
    refine ⟨alike, books, stopping, closed, suppressed, fun k m later => ?_, fun d busy => ?_,
      fun k lives m named => ?_⟩
    · by_cases same : k = l
      · rw [same] at later ⊢
        rw [before]
        exact List.mem_cons_of_mem n (left ▸ later)
      · exact others k same ▸ later
    · rw [sent] at busy
      rcases List.mem_append.mp busy with old | new
      · exact .inl old
      · rw [List.mem_singleton.mp new]
        exact .inr ⟨alive, own⟩
    · rw [there lives, here lives, sent]
      by_cases same : k = l
      · rw [same, left, before]
        simp only [List.mem_append, List.mem_cons, List.not_mem_nil, or_false, or_and_right, exists_or,
          exists_eq_left, or_assoc, eq_comm (a := m)]
      · have other : n ≠ m := by
          rintro rfl
          exact same (serving.resting.distinct k l lives.1 alive.1 (named.symm.trans mine))
        rw [others k same]
        simp only [List.mem_append, List.mem_singleton, List.not_mem_nil, or_false, or_and_right,
          exists_or, exists_eq_left, other]
  · refine ⟨alike, books, stopping, closed, suppressed, fun k m later => ?_,
      fun d busy => .inl (sent ▸ busy), fun k lives m named => ?_⟩
    · by_cases same : k = l
      · rw [same, left] at later
        cases later
      · exact others k same ▸ later
    · rw [there lives, here lives, sent]
      by_cases same : k = l
      · have empty : (ns.lock k).pending = [] := by
          refine same ▸ nothing.resolve_right ?_
          rintro (suppressed | leaving)
          · rw [← same, (serving.regular k lives).heard] at suppressed
            cases suppressed
          · rw [← same, serving.resting.leaving_eq_false lives] at leaving
            cases leaving
        rw [empty, same, left]
        exact or_iff_left List.not_mem_nil
      · rw [others k same]
        exact or_iff_left List.not_mem_nil

/-- A free worker takes up a lock. -/
theorem forwards_takeUp (serving : ns.Serving) (taken : ns.takeUp? = some ns') :
    Forwards ns [] ns' := by
  obtain ⟨-, l, rest, -, rfl⟩ := takeUp?_eq taken
  have queue := serving.resting.forwards_queue rest
  exact queue.trans ((serving.forwards queue).forwards_drain l)

/-- The transport has answered for a message, and the worker goes on. -/
theorem forwards_finish (serving : ns.Serving) {d : Delivery}
    (busy : d ∈ ns.dispatcher.deliveries) : Forwards ns [d.notification] (ns.finish d) := by
  have erase := serving.resting.forwards_erase busy
  exact erase.trans ((serving.forwards erase).forwards_drain d.lock)

end Serving
end Namespace

namespace Client

open Namespace (Forwards)

variable {x : Client} {server server' : Namespace} {out inbox : List Notification}

/-- Messages go on, and those that leave the server and concern the client's locks come to the client. -/
theorem Mirrors.forwards (mirrors : x.Mirrors server) (forwards : Forwards server out server')
    (comes : ∀ b, server.Alive b → (server.lock b).claim.owner = x.owner →
      ∀ n : Notification, n.handle = (server.lock b).handle → (n ∈ inbox ↔ n ∈ x.inbox ∨ n ∈ out)) :
    Mirrors { x with inbox } server' := by
  refine mirrors.pass inbox (fun b alive => ⟨forwards.alive.mpr alive, forwards.claim b,
    (congrArg Lock.key (forwards.alike.lock b) :), forwards.standing b⟩) fun b alive owner _ m => ?_
  rw [mem_unread, mem_unread]
  refine exists_congr fun n => ?_
  rw [and_congr_left_iff]
  rintro ⟨named, -, -⟩
  rw [comes b alive owner n named, ← forwards.underway b alive n named, or_assoc,
    or_comm (a := n ∈ out)]

end Client
end LockManager
