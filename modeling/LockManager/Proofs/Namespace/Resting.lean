import LockManager.Proofs.Coherence
import LockManager.Proofs.Namespace.Conclude
import LockManager.Proofs.Namespace.Replays

set_option autoImplicit false

/-!
Operations that run to their end with nothing in between. Each deals with one lock; other locks are at
most granted what they wanted, and are told so while the dispatcher is open.
-/

namespace LockManager

/-- Nothing that could keep a lock from being granted `mode` is in the queues. -/
def Queues.Admits (q : Queues) (l : LockId) (mode : Mode) : Prop :=
  (∀ e ∈ q.granted, e.claim.id ≠ l → e.mode.compatible mode = true) ∧
    q.converting = [] ∧ q.waiting = []

namespace Lock.Settled

variable {x : Lock} {own : Queues}

theorem holds (settled : x.Settled own) (granted : x.state = .granted) :
    x.grantedMode = some x.requestedMode := by
  cases settled <;> simp_all

theorem stays (settled : x.Settled own) : x.state.leaving = false := by
  cases settled <;> simp_all [LockState.leaving]

theorem cancelable (settled : x.Settled own) : x.state.allows .canceling = true :=
  LockState.allows_canceling_iff.mpr settled.stays

theorem holds_none (settled : x.Settled own) (new : x.state = .new) : x.grantedMode = none := by
  cases settled <;> simp_all

end Lock.Settled

namespace Arbiter

variable {a : Arbiter} {claim : Claim} {mode : Mode}

theorem opposed_of_compatible
    (beside : ∀ e ∈ a.queues.granted, e.claim.id ≠ claim.id → e.mode.compatible mode = true) :
    a.opposed claim mode = false := by
  apply List.any_eq_false.mpr
  intro e inside against
  obtain ⟨other, refuses, -⟩ := Entry.opposes_iff.mp against
  rw [beside e inside other] at refuses
  cases refuses

theorem grantable_of_admits (admits : a.queues.Admits claim.id mode) :
    a.grantable claim mode = true := by
  obtain ⟨beside, converting, waiting⟩ := admits
  simp [grantable, opposed_of_compatible beside, Queues.earlier, converting, waiting]

end Arbiter

namespace Namespace

/-! ### Between operations -/

/-- No operation is in progress: no lock is on its way out, and no reference is in anyone's hands. No
handle has been issued twice. -/
structure Resting (ns : Namespace) : Prop where
  sound : ns.Sound
  stays : ∀ l, l < ns.locks.size → (ns.lock l).state ≠ .canceling
  counted : ns.Counted 0 fun _ => False
  room : ns.Room
  distinct : ∀ k l, k < ns.locks.size → l < ns.locks.size →
    (ns.lock k).handle = (ns.lock l).handle → k = l
  numbered : ns.handles.Numbered

/-- An operation on another lock has at most granted the lock what it wanted. -/
structure Spared (ns ns' : Namespace) (k : LockId) : Prop where
  retired : (ns'.lock k).retired = (ns.lock k).retired
  key : (ns'.lock k).key = (ns.lock k).key
  served : (ns.lock k).Served (ns.dispatcher.closed = false) (ns'.lock k)

/-- An operation has dealt with the lock `l`. -/
structure Deals (ns : Namespace) (l : LockId) (ns' : Namespace) : Prop where
  resting : ns'.Resting
  steady : Steady ns ns'
  size : ns'.locks.size = ns.locks.size
  replays : ∀ k h, ns'.replays.get? k = some h → ns.replays.get? k = some h
  claim : ∀ k, (ns'.lock k).claim = (ns.lock k).claim
  spared : ∀ k, k ≠ l → Spared ns ns' k

/-- An operation has dealt with the lock `l`. The lock has been told nothing and stands so now. -/
structure Puts (ns : Namespace) (l : LockId) (standing : Standing) (ns' : Namespace) : Prop
    extends Deals ns l ns' where
  alive : ns'.Alive l
  key : (ns'.lock l).key = (ns.lock l).key
  hears : ns.dispatcher.closed = false → (ns.lock l).Hears (ns'.lock l) []
  standing : (ns'.lock l).standing = standing

variable {ns ns' : Namespace} {l : LockId}

namespace Spared

variable {k : LockId}

theorem of_eq (same : ns'.lock k = ns.lock k) : Spared ns ns' k :=
  ⟨congrArg Lock.retired same, congrArg Lock.key same, same ▸ .refl _⟩

theorem trans {ns'' : Namespace} (first : Spared ns ns' k) (steady : Steady ns ns')
    (second : Spared ns' ns'' k) : Spared ns ns'' k :=
  ⟨second.retired.trans first.retired, second.key.trans first.key,
    first.served.trans (second.served.mono steady.closed.trans)⟩

end Spared

theorem Deals.refl (rest : ns.Resting) (l : LockId) : Deals ns l ns :=
  ⟨rest, .refl ns, rfl, fun _ _ => id, fun _ => rfl, fun _ _ => .of_eq rfl⟩

theorem Puts.refl (rest : ns.Resting) (alive : ns.Alive l) : Puts ns l (ns.lock l).standing ns :=
  ⟨.refl rest l, alive, rfl, fun _ => .refl _, rfl⟩

theorem Deals.trans {ns'' : Namespace} (first : Deals ns l ns') (second : Deals ns' l ns'') :
    Deals ns l ns'' :=
  ⟨second.resting, first.steady.trans second.steady, second.size.trans first.size,
    fun k h => first.replays k h ∘ second.replays k h,
    fun k => (second.claim k).trans (first.claim k),
    fun k other => (first.spared k other).trans first.steady (second.spared k other)⟩

namespace Resting

/-! ### Handles -/

theorem get?_iff (rest : ns.Resting) {h : Handle} :
    ns.handles.get? h = some l ↔ ns.Alive l ∧ (ns.lock l).handle = h := by
  rw [(rest.sound.handles rest.room).2]
  exact ⟨fun ⟨known, named, stays⟩ => ⟨⟨known, stays⟩, named⟩,
    fun ⟨⟨known, stays⟩, named⟩ => ⟨known, named, stays⟩⟩

theorem lookup (rest : ns.Resting) (alive : ns.Alive l) : ns.lookup (ns.lock l).handle = .ok l :=
  rest.sound.lookup_handle rest.room alive

theorem status (rest : ns.Resting) (alive : ns.Alive l) :
    ns.handles.status (ns.lock l).handle = .live l :=
  rest.numbered.status_eq_live.mpr (rest.get?_iff.mpr ⟨alive, rfl⟩)

/-- The handle of a lock that has gone is never anybody else's. -/
theorem get?_of_retired (rest : ns.Resting) (known : l < ns.locks.size)
    (gone : (ns.lock l).retired = true) : ns.handles.get? (ns.lock l).handle = none := by
  apply Option.eq_none_iff_forall_ne_some.mpr
  intro k found
  obtain ⟨alive, same⟩ := rest.get?_iff.mp found
  rw [← rest.distinct k l alive.1 known same, alive.2] at gone
  cases gone

/-! ### Going on -/

theorem next (rest : ns.Resting) (sound : ns'.Sound)
    (stays : ∀ l, l < ns.locks.size → (ns'.lock l).state ≠ .canceling)
    (counted : ns'.Counted 0 fun _ => False)
    (handles : ns'.handles = ns.handles ∨ ∃ h, ns'.handles = ns.handles.remove h)
    (size : ns'.locks.size = ns.locks.size) (claim : ∀ k, (ns'.lock k).claim = (ns.lock k).claim) :
    ns'.Resting := by
  have slots : ns'.handles.slots.size = ns.handles.slots.size ∧ ns'.handles.Numbered := by
    rcases handles with same | ⟨h, less⟩
    · rw [same]
      exact ⟨rfl, rest.numbered⟩
    · rw [less]
      exact ⟨HandleTable.size_remove h, rest.numbered.remove h⟩
  refine ⟨sound, fun l known => stays l (size ▸ known), counted, ?_, fun k l below above same => ?_,
    slots.2⟩
  · exact Nat.le_trans (Nat.le_of_eq slots.1) rest.room
  · unfold Lock.handle at same
    rw [claim, claim] at same
    exact rest.distinct k l (size ▸ below) (size ▸ above) same

theorem onward (rest : ns.Resting) (onward : Onward ns ns') (same : ns'.catalog = ns.catalog) :
    ns'.Resting := by
  refine rest.next (rest.sound.onward onward) (fun k known canceling => ?_)
    (rest.counted.onward onward same) (.inl onward.becomes.handles) onward.keeps.size
    fun k => (onward.keeps.lock k).claim
  exact rest.stays k known (((onward.keeps.lock k).state_iff rfl).mp canceling)

theorem alike (rest : ns.Resting) (alike : Alike ns ns') (same : ns'.catalog = ns.catalog) :
    ns'.Resting :=
  rest.onward (alike.onward rest.sound) same

theorem settled (rest : ns.Resting) (alive : ns.Alive l) :
    (ns.lock l).Settled ((ns.resource (ns.lock l).resource).queues.of l) :=
  rest.sound.settled alive (rest.stays l alive.1)

theorem entry_of_held (rest : ns.Resting) (alive : ns.Alive l) {m : Mode}
    (held : (ns.lock l).grantedMode = some m) :
    (⟨(ns.lock l).claim, m⟩ : Entry) ∈ (ns.resource (ns.lock l).resource).queues.granted := by
  have inside : (⟨(ns.lock l).claim, m⟩ : Entry) ∈
      ((ns.resource (ns.lock l).resource).queues.of l).granted := by
    rcases rest.settled alive with ⟨-, none, -⟩ | ⟨-, none, -⟩ | ⟨-, holds, entries⟩ |
      ⟨-, holds, entries, -⟩
    · rw [none] at held
      cases held
    · rw [none] at held
      cases held
    · rw [entries, ← Option.some.inj (holds.symm.trans held)]
      exact List.mem_singleton_self _
    · rw [entries, ← Option.some.inj (holds.symm.trans held)]
      exact List.mem_singleton_self _
  exact (Queues.mem_granted_of.mp inside).1

/-- Nothing keeps a lock from being granted a mode if its resource has but granted locks, and those
go with the mode. -/
theorem admits (rest : ns.Resting) (alive : ns.Alive l) {mode : Mode}
    (simple : ∀ k, ns.Alive k → (ns.lock k).state = .new ∨ (ns.lock k).state = .granted)
    (beside : ∀ k, k ≠ l → ns.Alive k → (ns.lock k).key = (ns.lock l).key →
      ∀ m, (ns.lock k).grantedMode = some m → m.compatible mode = true) :
    (ns.resource (ns.lock l).resource).queues.Admits l mode := by
  have c := rest.sound.ledger.coherent
  refine ⟨fun e inside other => ?_, List.eq_nil_iff_forall_not_mem.mpr fun e inside => ?_,
    List.eq_nil_iff_forall_not_mem.mpr fun e inside => ?_⟩
  · have entry := Queues.mem_entries.mpr (.inl (.inl inside))
    obtain ⟨alive', place⟩ := rest.sound.alive_of_mem entry
    have holds := (c.seat_of_mem entry).of_granted (Queues.mem_granted_of.mpr ⟨inside, rfl⟩)
    refine beside _ other alive' ?_ _ holds.1
    rw [rest.counted.named _ alive'.1, place, rest.counted.named l alive.1]
  · have entry := Queues.mem_entries.mpr (.inl (.inr inside))
    have state := simple _ (rest.sound.alive_of_mem entry).1
    have converting := (c.seat_of_mem entry).of_converting (Queues.mem_converting_of.mpr ⟨inside, rfl⟩)
      (by rcases state with state | state <;> exact congrArg LockState.leaving state)
    rcases state with state | state <;> cases state.symm.trans converting.1
  · have entry := Queues.mem_entries.mpr (.inr inside)
    have state := simple _ (rest.sound.alive_of_mem entry).1
    have waiting := (c.seat_of_mem entry).of_waiting (Queues.mem_waiting_of.mpr ⟨inside, rfl⟩)
      (by rcases state with state | state <;> exact congrArg LockState.leaving state)
    rcases state with state | state <;> cases state.symm.trans waiting.1

/-- The operation went on with the queues of one resource and made or ended no lock. -/
theorem puts (rest : ns.Resting) (alive : ns.Alive l) (onward : Onward ns ns')
    (books : ns'.books = ns.books) (steady : Steady ns ns')
    (served : ∀ k, k ≠ l → (ns.lock k).Served (ns.dispatcher.closed = false) (ns'.lock k))
    (hears : ns.dispatcher.closed = false → (ns.lock l).Hears (ns'.lock l) []) {standing : Standing}
    (stands : (ns'.lock l).standing = standing) : Puts ns l standing ns' := by
  have lock := onward.keeps.lock
  refine ⟨⟨rest.onward onward (catalog_of_books books), steady, onward.keeps.size,
    fun k h found => ?_, fun k => (lock k).claim,
    fun k other => ⟨(lock k).retired, (lock k).key, served k other⟩⟩, ⟨?_, ?_⟩, (lock l).key, hears,
    stands⟩
  · rwa [← replays_of_books books]
  · exact Nat.lt_of_lt_of_eq alive.1 onward.keeps.size.symm
  · exact (lock l).retired.trans alive.2

/-! ### Coming -/

/-- A new lock is granted what it wants, or waits if something keeps it back. -/
theorem submit (rest : ns.Resting) (alive : ns.Alive l) (new : (ns.lock l).state = .new)
    (running : ns.stopping = false) :
    ∃ ns' standing, ns.submit l (ns.lock l).resource = .ok (ns'.reply l, ns') ∧
      Puts ns l standing ns' ∧
      (standing = ⟨.granted, (ns.lock l).requestedMode, some (ns.lock l).requestedMode⟩ ∨
        standing = ⟨.waiting, (ns.lock l).requestedMode, none⟩ ∧
          ¬(ns.resource (ns.lock l).resource).queues.Admits l (ns.lock l).requestedMode) := by
  have named : (ns.lock l).claim.id = l := rest.sound.ledger.coherent.named l alive.1
  have held : (ns.lock l).grantedMode = none := (rest.settled alive).holds_none new
  have self := ((ns.arbiter (ns.lock l).resource).lock_modifyLock l
    (fun _ => (ns.lock l).enter .enqueued) l).trans (if_pos ⟨rfl, alive.1⟩)
  generalize came : ((ns.arbiter (ns.lock l).resource).modifyLock l
    fun _ => (ns.lock l).enter .enqueued) = a at self
  have done := submit_of_new new running _ came
  obtain ⟨hears, -, result⟩ := a.receive_lock (ns.lock l).claim
    (by rw [named, self]; rfl) (ns.lock l).requestedMode
  rw [named, self] at result
  refine ⟨_, _, done, rest.puts alive (rest.sound.submit alive.1 rfl done) (ns.books_submit done)
    (steady_conclude ..) (fun k other => served_submit alive.1 named done other)
    (fun opened => ?_) rfl, ?_⟩
  · have heard := hears l
    rw [self] at heard
    have entered : (ns.lock l).Hears ((ns.lock l).enter .enqueued) [] := .nothing rfl rfl rfl
    exact hears_conclude opened (entered.trans heard)
  · rw [standing_conclude]
    rcases result with ⟨-, granted⟩ | ⟨refused, waits⟩
    · exact .inl granted
    · refine .inr ⟨waits.trans (congrArg (Standing.mk _ _) held), fun admits => ?_⟩
      rw [Arbiter.grantable_of_admits (by rw [named, ← came]; exact admits)] at refused
      cases refused

/-! ### Changing mode -/

section

variable {held mode : Mode}

theorem changeMode_same (granted : (ns.lock l).standing = ⟨.granted, mode, some mode⟩)
    (r : ResourceId) : ns.changeMode l mode r = .ok (.granted, ns) := by
  have state : (ns.lock l).state = .granted := congrArg Standing.state granted
  have holds : (ns.lock l).grantedMode = some mode := congrArg Standing.held granted
  have edge : (ns.lock l).advance? .converting = some ((ns.lock l).enter .converting) :=
    Lock.advance?_of_allows (by rw [state]; rfl)
  unfold Namespace.changeMode
  simp only [holds, edge, if_true]
  rfl

/-- What becomes of a lock that asks for another mode than it holds. -/
theorem changeMode_other (granted : (ns.lock l).standing = ⟨.granted, held, some held⟩)
    (other : held ≠ mode) (r : ResourceId) : ns.changeMode l mode r =
      if (ns.asking l mode r).opposed (ns.lock l).claim mode then
        .ok (.pending, ns.conclude r (((ns.asking l mode r).modifyQueues
          (·.addConverting ⟨(ns.lock l).claim, mode⟩)).askHolders (ns.lock l).claim mode))
      else
        match (ns.asking l mode r).convert? (ns.lock l).claim mode false with
        | some a => .ok (.granted, ns.conclude r a.reprocess)
        | none => .error (.protocolViolation (ns.lock l).handle (ns.lock l).state .convert) := by
  have state : (ns.lock l).state = .granted := congrArg Standing.state granted
  have holds : (ns.lock l).grantedMode = some held := congrArg Standing.held granted
  have edge : (ns.lock l).advance? .converting = some ((ns.lock l).enter .converting) :=
    Lock.advance?_of_allows (by rw [state]; rfl)
  unfold Namespace.changeMode
  simp only [holds, edge, other, if_false]
  rfl

/-- The lock waits for the mode, and holds on to the one it has. -/
theorem pend (rest : ns.Resting) (alive : ns.Alive l)
    (granted : (ns.lock l).standing = ⟨.granted, held, some held⟩) (other : held ≠ mode)
    (against : (ns.asking l mode (ns.lock l).resource).opposed (ns.lock l).claim mode = true) :
    ∃ ns', ns.changeMode l mode (ns.lock l).resource = .ok (.pending, ns') ∧
      Puts ns l ⟨.converting, mode, some held⟩ ns' := by
  have step := changeMode_other granted other (ns.lock l).resource
  rw [against, if_pos rfl] at step
  have named : (ns.lock l).claim.id = l := rest.sound.ledger.coherent.named l alive.1
  have served (k : LockId) (others : k ≠ l) := served_changeMode named step others
  have self := lock_asking alive.1 mode (ns.lock l).resource
  generalize ns.asking l mode (ns.lock l).resource = a at self served step
  have asks := (a.modifyQueues (·.addConverting ⟨(ns.lock l).claim, mode⟩)).asks_askHolders
    (ns.lock l).claim mode
  refine ⟨_, step, rest.puts alive (rest.sound.changeMode alive.1 rfl step) (ns.books_changeMode step)
    (steady_conclude ..) served (fun opened => ?_) ?_⟩
  · have heard := (asks l).1
    rw [show (a.modifyQueues _).lock l = (ns.lock l).ask mode from self] at heard
    have asked : (ns.lock l).Hears ((ns.lock l).ask mode) [] := .nothing rfl rfl rfl
    exact hears_conclude opened (asked.trans heard)
  · rw [standing_conclude, (asks l).2, show (a.modifyQueues _).lock l = (ns.lock l).ask mode from self]
    exact congrArg (Standing.mk _ _) (congrArg Standing.held granted)

/-- With nothing against it the lock has the mode at once, and the resource is looked at again. -/
theorem changeMode_free (known : l < ns.locks.size) (named : (ns.lock l).claim.id = l)
    (granted : (ns.lock l).standing = ⟨.granted, held, some held⟩) (other : held ≠ mode)
    {r : ResourceId} (free : (ns.asking l mode r).opposed (ns.lock l).claim mode = false) :
    ∃ a : Arbiter, ns.changeMode l mode r = .ok (.granted, ns.conclude r a.reprocess) ∧
      a.lock l = (((ns.lock l).ask mode).enter .granted).hold mode := by
  have step := changeMode_other granted other r
  have self := lock_asking known mode r
  generalize ns.asking l mode r = a at self step free
  obtain ⟨b, entered⟩ := Arbiter.exists_enter (a := a) (l := (ns.lock l).claim.id) mode false
    (by rw [named, self]; rfl)
  obtain ⟨c, converted⟩ : ∃ c, a.convert? (ns.lock l).claim mode false = some c :=
    ⟨_, congrArg (Option.map _) entered⟩
  obtain ⟨now, -⟩ := Arbiter.lock_convert converted
  rw [named, self] at now
  rw [free, if_neg Bool.false_ne_true, converted] at step
  exact ⟨c, step, now⟩

/-- Looking at the resource again leaves a lock alone that has come to what it wanted. -/
theorem standing_of_reprocess {a : Arbiter} {x : Lock} (now : a.lock l = (x.enter .granted).hold mode)
    (r : ResourceId) :
    ((ns.conclude r a.reprocess).lock l).standing = ((x.enter .granted).hold mode).standing := by
  have rests : (a.lock l).state.allows .granted = false := by
    rw [now]
    rfl
  rw [standing_conclude, (Arbiter.serves_respects.reprocess a l).standing_eq rests, now]

/-- The lock has the mode at once, and the resource is looked at again. -/
theorem switch (rest : ns.Resting) (alive : ns.Alive l)
    (granted : (ns.lock l).standing = ⟨.granted, held, some held⟩) (other : held ≠ mode)
    (free : (ns.asking l mode (ns.lock l).resource).opposed (ns.lock l).claim mode = false) :
    ∃ ns', ns.changeMode l mode (ns.lock l).resource = .ok (.granted, ns') ∧
      Puts ns l ⟨.granted, mode, some mode⟩ ns' := by
  have named : (ns.lock l).claim.id = l := rest.sound.ledger.coherent.named l alive.1
  obtain ⟨a, step, now⟩ := changeMode_free alive.1 named granted other free
  have rests : (a.lock l).state.allows .granted = false := by
    rw [now]
    rfl
  refine ⟨_, step, rest.puts alive (rest.sound.changeMode alive.1 rfl step) (ns.books_changeMode step)
    (steady_conclude ..) (fun k apart => served_changeMode named step apart) (fun opened => ?_)
    (standing_of_reprocess now _)⟩
  have switched : (ns.lock l).Hears (a.lock l) [] := by
    rw [now]
    exact .nothing rfl rfl rfl
  have serves := Arbiter.serves_respects.reprocess a
  exact hears_conclude opened (switched.trans ((serves l).hears_of_rests rests trivial))

/-- A granted lock keeps its mode, gets the other one at once, or waits for it if something stands
against it. -/
theorem changeMode (rest : ns.Resting) (alive : ns.Alive l)
    (granted : (ns.lock l).standing = ⟨.granted, held, some held⟩) (mode : Mode) :
    held = mode ∧ ns.changeMode l mode (ns.lock l).resource = .ok (.granted, ns) ∨
      ∃ ns', ns.changeMode l mode (ns.lock l).resource = .ok (.granted, ns') ∧
          Puts ns l ⟨.granted, mode, some mode⟩ ns' ∨
        ns.changeMode l mode (ns.lock l).resource = .ok (.pending, ns') ∧
          Puts ns l ⟨.converting, mode, some held⟩ ns' ∧
          ∃ e ∈ (ns.resource (ns.lock l).resource).queues.granted, e.claim.id ≠ l ∧
            e.mode.compatible mode = false := by
  by_cases same : held = mode
  · obtain rfl := same
    exact .inl ⟨rfl, changeMode_same granted _⟩
  · refine .inr ?_
    cases against : (ns.asking l mode (ns.lock l).resource).opposed (ns.lock l).claim mode with
    | true =>
      obtain ⟨ns', pending, puts⟩ := rest.pend alive granted same against
      refine ⟨ns', .inr ⟨pending, puts, ?_⟩⟩
      obtain ⟨e, inside, opposes⟩ := List.any_eq_true.mp against
      obtain ⟨other, refuses, -⟩ := Entry.opposes_iff.mp opposes
      have named : (ns.lock l).claim.id = l := rest.sound.ledger.coherent.named l alive.1
      exact ⟨e, inside, named ▸ other, refuses⟩
    | false =>
      obtain ⟨ns', done, puts⟩ := rest.switch alive granted same against
      exact ⟨ns', .inl ⟨done, puts⟩⟩

end

end Resting
end Namespace
end LockManager
