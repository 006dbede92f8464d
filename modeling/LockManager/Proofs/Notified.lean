import LockManager.Proofs.Alone
import LockManager.Proofs.Namespace.Notices

set_option autoImplicit false

/-!
Whether messages tell exactly what has happened. An operation that is carried out with no other in
progress tells each lock that comes to what it waited for which mode it has, tells only holders that
they are in someone's way, and asks just those who may have changed what is cached.
-/

namespace LockManager
namespace Namespace

/-- A glimpse that is not refused asks lock `k` for what it has cached: the lock is granted a mode that
writes, and is not the requester's. -/
def Peeks (ns : Namespace) (op : Operation) (k : LockId) (n : Notification) : Prop :=
  ns.stopping = false ∧ ∃ key requester, op = .glimpse key requester ∧
    ∃ r, (ns.resource r).key = key ∧ ∃ e ∈ (ns.resource r).queues.granted, e.claim.id = k ∧
      e.mode.writes = true ∧ e.claim.owner ≠ requester ∧ n = .peek (ns.lock k) e.mode requester

/-- What an operation has sent to lock `k`, besides what is kept of what was on its way before: what
the lock has gained, then who waits for it, and what is asked about its cache. -/
structure Reports (ns : Namespace) (op : Operation) (ns' : Namespace) (k : LockId)
    (kept told asked peeked : List Notification) : Prop where
  pending : (ns'.lock k).pending = kept ++ told ++ asked ++ peeked
  kept : kept = (ns.lock k).pending ∨ kept = [] ∧ ns.Alive k ∧ ¬ns'.Alive k
  gains : (ns.lock k).Gains (ns'.lock k) →
    ∃ mode, (ns'.lock k).grantedMode = some mode ∧ told = [.completed (ns'.lock k) mode]
  rests : ¬(ns.lock k).Gains (ns'.lock k) → told = []
  asked : ∀ n ∈ asked, ∃ r, (ns'.resource r).queues.Presses k (ns'.lock k) n
  peeked : peeked.length ≤ 1 ∧ ∀ n, n ∈ peeked ↔ ns.Peeks op k n

variable {ns ns₁ ns' : Namespace} {op : Operation} {k l : LockId} {told asked : List Notification}

theorem not_peeks (other : ∀ key requester, op ≠ .glimpse key requester) (n : Notification) :
    ¬ns.Peeks op k n := by
  rintro ⟨-, key, requester, same, -⟩
  exact other key requester same

/-- What the operation has done before it got to the lock does not matter, if it was no concern of
the lock's. -/
theorem Notices.reports (notices : Notices ns₁ ns' k told asked)
    (pending : (ns₁.lock k).pending = (ns.lock k).pending)
    (state : (ns₁.lock k).state = (ns.lock k).state)
    (heard : (ns₁.lock k).Gains (ns'.lock k) → (ns₁.lock k).suppressed = false)
    (none : ∀ n, ¬ns.Peeks op k n) : Reports ns op ns' k (ns.lock k).pending told asked [] := by
  have gains : (ns.lock k).Gains (ns'.lock k) ↔ (ns₁.lock k).Gains (ns'.lock k) := by
    rw [Lock.Gains, Lock.Gains, state]
  refine ⟨?_, .inl rfl, fun now => ?_, fun not => ?_, fun n member => ?_, Nat.zero_le _, fun n => ?_⟩
  · rw [notices.sent.pending, pending, List.append_nil, List.append_assoc]
  · obtain ⟨mode, held, same⟩ := notices.apprised.gains (gains.mp now)
    refine ⟨mode, held, ?_⟩
    rw [same, Lock.tidings, heard (gains.mp now), notices.sent.completed_eq]
    rfl
  · exact notices.apprised.rests fun now => not (gains.mpr now)
  · obtain ⟨r, g, holds, mine, w, wants, against, same⟩ := notices.presses n member
    exact ⟨r, g, holds, mine, w, wants, against, same.trans (notices.sent.giveWay_eq ..).symm⟩
  · exact iff_of_false List.not_mem_nil (none n)

/-- The lock has gone and has been told nothing. -/
structure Quits (ns ns' : Namespace) (l : LockId) : Prop where
  retired : (ns'.lock l).retired = true
  state : (ns'.lock l).state = .canceled
  pending : (ns'.lock l).pending = (ns.lock l).pending ∨ (ns'.lock l).pending = []

theorem Quits.not_alive (gone : Quits ns ns' l) : ¬ns'.Alive l := by
  rintro ⟨-, stays⟩
  rw [gone.retired] at stays
  cases stays

theorem quits_leave (sound : ns.Sound) (known : l < ns.locks.size)
    (canceling : (ns.lock l).state = .canceling) :
    Quits ns (ns.leave l (ns.lock l).resource) l := by
  have leaving : (ns.lock l).state.leaving = true := by
    rw [canceling]
    rfl
  obtain ⟨b, left⟩ := sound.leave known rfl canceling
  obtain ⟨a, posts, mail⟩ := posts_leave canceling (ns.lock l).resource
  obtain ⟨-, pending⟩ := ignores_conclude posts l (.inr leaving)
  rw [← mail] at pending
  have records := Records.of_left left
  have after := left.sound
  generalize ns.leave l (ns.lock l).resource = ns' at after records pending ⊢
  have gone : (ns'.lock l).retired = true := (records.retired l).mpr (.inr rfl)
  exact ⟨gone, (after.ledger.retired l (known.trans_eq records.size.symm)).mp gone, pending⟩

namespace Calm

theorem heard_of_gains (calm : ns.Calm) {x : Lock} (gains : (ns.lock k).Gains x) :
    (ns.lock k).suppressed = false := by
  have known : k < ns.locks.size := by
    by_contra beyond
    rw [Lock.Gains, lock_beyond beyond] at gains
    rcases gains.1 with waits | converts
    · cases waits
    · cases converts
  refine calm.heard k (calm.sound.alive known ?_)
  rcases gains.1 with state | state <;> rw [state] <;> decide

theorem arrived (calm : ns.Calm) (k : LockId) : (ns.lock k).state ≠ .enqueued := by
  by_cases known : k < ns.locks.size
  · exact calm.sound.ledger.arrived k known
  · rw [lock_beyond known]
    decide

/-- An operation that does not begin with something else. -/
theorem reports (calm : ns.Calm) (notices : Notices ns ns' k told asked)
    (none : ∀ n, ¬ns.Peeks op k n) : Reports ns op ns' k (ns.lock k).pending told asked [] :=
  notices.reports rfl rfl calm.heard_of_gains none

/-- A refused operation tells nobody anything. -/
theorem reports_refused (calm : ns.Calm) (none : ∀ n, ¬ns.Peeks op k n) :
    Reports ns op ns k (ns.lock k).pending [] [] [] :=
  calm.reports (.refl ns k) none

/-! ### Coming -/

theorem reports_enqueue (calm : ns.Calm) (req : LockRequest) (k : LockId) :
    ∃ asked, Reports ns (.enqueue req) (ns.enqueue req).2 k (ns.lock k).pending [] asked [] := by
  have none (n : Notification) : ¬ns.Peeks (.enqueue req) k n := not_peeks (by simp) n
  unfold enqueue
  cases done : ns.register req with
  | error e => exact ⟨[], calm.reports_refused none⟩
  | ok answer =>
    obtain ⟨registration, ns₁⟩ := answer
    rcases register_ok done with ⟨l, rfl, rfl⟩ | ⟨rfl, rfl, running, valid, -⟩
    · exact ⟨[], calm.reports_refused none⟩
    · dsimp only
      have lock := ns.lock_addLock req
      have added := calm.sound.addLock valid
      have steady := ns.steady_addLock req
      have stopping : (ns.addLock req).2.stopping = false := steady.stopping.trans running
      have opened : (ns.addLock req).2.dispatcher.closed = false :=
        steady.closed.trans (calm.open_of_running running)
      generalize (ns.addLock req).2 = ns₁ at lock added stopping opened ⊢
      have known : ns.locks.size < ns₁.locks.size := added.size ▸ Nat.lt_succ_self _
      have done := submit_of_new added.new stopping (ns₁.lock ns.locks.size).resource rfl
      obtain ⟨asked, notices⟩ := notices_submit opened known
        (added.sound.ledger.coherent.named _ known) (added.sound.placed _ known) done k
      rw [done]
      by_cases mine : k = ns.locks.size
      · -- there was no lock to be told anything before
        have before : ns.lock k = default := lock_beyond (mine ▸ Nat.lt_irrefl _)
        have made := (lock k).trans (if_pos mine)
        refine ⟨asked, notices.reports ?_ ?_ (fun _ => ?_) none⟩ <;> rw [made]
        · rw [before]
          rfl
        · rw [before]
          rfl
        · rfl
      · have same := (lock k).trans (if_neg mine)
        refine ⟨asked, notices.reports ?_ ?_ (fun gains => ?_) none⟩ <;> rw [same]
        rw [same] at gains
        exact calm.heard_of_gains gains

theorem reports_enqueueLock (calm : ns.Calm) (h : Handle) (k : LockId) :
    ∃ asked, Reports ns (.enqueueLock h) (ns.enqueueLock h).2 k (ns.lock k).pending [] asked [] := by
  have none (n : Notification) : ¬ns.Peeks (.enqueueLock h) k n := not_peeks (by simp) n
  unfold enqueueLock
  cases found : ns.lookup h with
  | error e => exact ⟨[], calm.reports_refused none⟩
  | ok l =>
    obtain ⟨alive, running⟩ := calm.named found
    dsimp only
    cases done : ns.submit l (ns.lock l).resource with
    | error e => exact ⟨[], calm.reports_refused none⟩
    | ok answer =>
      obtain ⟨asked, notices⟩ := notices_submit (calm.open_of_running running) alive.1
        (calm.sound.ledger.coherent.named l alive.1) (calm.sound.placed l alive.1) done k
      exact ⟨asked, calm.reports notices none⟩

/-! ### Changing mode -/

theorem reports_convert (calm : ns.Calm) (h : Handle) (mode : Mode) (k : LockId) :
    ∃ told asked,
      Reports ns (.convert h mode) (ns.convert h mode).2 k (ns.lock k).pending told asked [] := by
  have none (n : Notification) : ¬ns.Peeks (.convert h mode) k n := not_peeks (by simp) n
  unfold convert
  cases ns.ensureRunning with
  | error e => exact ⟨[], [], calm.reports_refused none⟩
  | ok _ =>
    cases found : ns.lookup h with
    | error e => exact ⟨[], [], calm.reports_refused none⟩
    | ok l =>
      obtain ⟨alive, running⟩ := calm.named found
      dsimp only
      cases done : ns.changeMode l mode (ns.lock l).resource with
      | error e => exact ⟨[], [], calm.reports_refused none⟩
      | ok answer =>
        obtain ⟨told, asked, notices⟩ := notices_changeMode (calm.open_of_running running) alive.1
          (calm.sound.ledger.coherent.named l alive.1) (calm.sound.placed l alive.1)
          (calm.arrived k) done
        exact ⟨told, asked, calm.reports notices none⟩

/-! ### Going -/

/-- A lock that is canceled goes, and is told nothing. -/
theorem quits_cancelLock (calm : ns.Calm) (alive : ns.Alive l) : Quits ns (ns.cancelLock l) l := by
  unfold cancelLock
  cases marked : ns.mark? l with
  | none => exact absurd marked (calm.mark?_ne_none alive)
  | some ns₁ =>
    dsimp only
    have sound := calm.sound.mark alive.1 marked
    obtain ⟨-, rfl⟩ := mark?_eq marked
    have self := (ns.lock_modifyLock (fun _ => (ns.lock l).enter .canceling) l l).trans
      (if_pos ⟨rfl, alive.1⟩)
    have known : l < (ns.modifyLock l fun _ => (ns.lock l).enter .canceling).locks.size :=
      alive.1.trans_eq (Arena.size_modify ..).symm
    generalize ns.modifyLock l _ = ns₁ at sound self known ⊢
    have left := quits_leave sound known (by rw [self]; rfl)
    have same := lock_of_roster ((ns₁.leave l (ns₁.lock l).resource).roster_release
      (ns₁.lock l).resource) l
    have before : (ns₁.lock l).pending = (ns.lock l).pending := by
      rw [self]
      rfl
    refine ⟨?_, ?_, ?_⟩ <;> rw [same]
    · exact left.retired
    · exact left.state
    · rw [← before]
      exact left.pending

theorem reports_cancel (calm : ns.Calm) (h : Handle) (k : LockId) :
    ∃ kept told asked, Reports ns (.cancel h) (ns.cancel h).2 k kept told asked [] := by
  have none (n : Notification) : ¬ns.Peeks (.cancel h) k n := not_peeks (by simp) n
  unfold cancel
  cases status : ns.handles.status h with
  | retired | unknown => exact ⟨_, [], [], calm.reports_refused none⟩
  | live l =>
    obtain ⟨alive, running⟩ := calm.live status
    by_cases other : k = l
    · obtain rfl := other
      have gone := calm.quits_cancelLock alive
      have rests : ¬(ns.lock k).Gains ((ns.cancelLock k).lock k) := by
        rintro ⟨-, granted⟩
        rw [gone.state] at granted
        cases granted
      refine ⟨((ns.cancelLock k).lock k).pending, [], [], by simp, ?_,
        fun gains => absurd gains rests, fun _ => rfl, by simp, Nat.zero_le _,
        fun n => iff_of_false List.not_mem_nil (none n)⟩
      exact gone.pending.imp_right fun nothing => ⟨nothing, alive, gone.not_alive⟩
    · obtain ⟨told, asked, notices⟩ := notices_cancelLock (calm.open_of_running running) alive.1
        (calm.sound.placed l alive.1) other (calm.arrived k)
      exact ⟨_, told, asked, calm.reports notices none⟩

/-! ### Asking what is cached -/

/-- A resource with entries is found under its key. -/
theorem found_of_mem (calm : ns.Calm) {r : ResourceId} {e : Entry}
    (inside : e ∈ (ns.resource r).queues.entries) :
    ns.index.get? (ns.resource r).key = some r := by
  obtain ⟨alive, bound⟩ := calm.sound.alive_of_mem inside
  have found := calm.counted.indexed alive
  rwa [calm.counted.named _ alive.1, bound] at found

theorem mem_peeked_iff (calm : ns.Calm) (running : ns.stopping = false) {key : Key} {r : ResourceId}
    (there : ns.index.get? key = some r) (requester : Owner) (k : LockId) (n : Notification) :
    (n ∈ ((ns.resource r).queues.peeked requester k).map fun e =>
      .peek (ns.lock k) e.mode requester) ↔ ns.Peeks (.glimpse key requester) k n := by
  simp only [Queues.peeked, List.mem_map, List.mem_filter, Bool.and_eq_true, bne_iff_ne, beq_iff_eq]
  constructor
  · rintro ⟨e, ⟨⟨holds, writes, other⟩, mine⟩, rfl⟩
    exact ⟨running, key, requester, rfl, r, calm.counted.keyed key r there, e, holds, mine, writes,
      other, rfl⟩
  · rintro ⟨-, _, _, same, q, rfl, e, holds, mine, writes, other, rfl⟩
    cases same
    have found := calm.found_of_mem (Queues.mem_entries.mpr (.inl (.inl holds)))
    obtain rfl := Option.some.inj (there.symm.trans found)
    exact ⟨e, ⟨⟨holds, writes, other⟩, mine⟩, rfl⟩

theorem length_peeked_le (calm : ns.Calm) (r : ResourceId) (requester : Owner) (k : LockId) :
    ((ns.resource r).queues.peeked requester k).length ≤ 1 := by
  have few := (calm.sound.ledger.coherent.single r k).1
  exact (List.filter_sublist.filter _).length_le.trans few

theorem reports_glimpse (calm : ns.Calm) (key : Key) (requester : Owner) (k : LockId) :
    ∃ peeked, Reports ns (.glimpse key requester) (ns.glimpse key requester).2 k
      (ns.lock k).pending [] [] peeked := by
  unfold glimpse
  cases running : ns.ensureRunning with
  | error e =>
    refine ⟨[], calm.reports_refused fun n peeks => ?_⟩
    simp [ensureRunning, peeks.1] at running
  | ok _ =>
    have running : ns.stopping = false := by
      by_contra stopping
      simp [ensureRunning, stopping] at running
    unfold find?
    cases there : ns.index.get? key with
    | none =>
      refine ⟨[], calm.reports_refused ?_⟩
      rintro n ⟨-, _, _, same, r, rfl, e, holds, -⟩
      cases same
      rw [calm.found_of_mem (Queues.mem_entries.mpr (.inl (.inl holds)))] at there
      cases there
    | some r =>
      have held : r < ns.resources.size := calm.sound.indexed key r there
      have queues : ((ns.addRef r).resource r).queues = (ns.resource r).queues :=
        congrFun (congrArg Ledger.queues (ns.alike_addRef r).ledger) r
      have heard (e : Entry) (holds : e ∈ (ns.resource r).queues.granted) (mine : e.claim.id = k) :
          k < ns.locks.size ∧ (ns.lock k).suppressed = false ∧ (ns.lock k).state.leaving = false := by
        subst mine
        obtain ⟨alive, -⟩ := calm.sound.alive_of_mem (Queues.mem_entries.mpr (.inl (.inl holds)))
        exact ⟨alive.1, calm.heard _ alive, (calm.settled alive).stays⟩
      rw [← queues] at heard
      have opened : (ns.addRef r).dispatcher.closed = false := calm.open_of_running running
      have held' : r < (ns.addRef r).resources.size := held.trans_eq (Arena.size_modify ..).symm
      have asked := sent_ask opened held' requester heard
      rw [queues] at asked
      simp only [Option.map_some]
      generalize (ns.addRef r).ask r requester = answer at asked ⊢
      obtain ⟨n, ns₁⟩ := answer
      obtain ⟨sent, state⟩ := asked
      have same := lock_of_roster (ns₁.roster_release r) k
      have rests : ¬(ns.lock k).Gains ((ns₁.release r).lock k) :=
        Lock.not_gains_of_state ((congrArg Lock.state same).trans state)
      refine ⟨((ns.resource r).queues.peeked requester k).map fun e =>
          .peek (ns.lock k) e.mode requester,
        ?_, .inl rfl, fun gains => absurd gains rests, fun _ => rfl, by simp, ?_, ?_⟩
      · rw [congrArg Lock.pending same, sent.pending, List.append_nil, List.append_nil]
        rfl
      · rw [List.length_map]
        exact calm.length_peeked_le r requester k
      · exact calm.mem_peeked_iff running there requester k

/-! ### Any of them -/

theorem reports_perform (calm : ns.Calm) (ordinary : op.Ordinary) (k : LockId) :
    ∃ kept told asked peeked, Reports ns op (ns.perform op).2 k kept told asked peeked := by
  cases op with
  | enqueue req =>
    obtain ⟨asked, reports⟩ := calm.reports_enqueue req k
    exact ⟨_, _, asked, _, reports⟩
  | enqueueLock h =>
    obtain ⟨asked, reports⟩ := calm.reports_enqueueLock h k
    exact ⟨_, _, asked, _, reports⟩
  | convert h mode =>
    obtain ⟨told, asked, reports⟩ := calm.reports_convert h mode k
    exact ⟨_, told, asked, _, reports⟩
  | cancel h =>
    obtain ⟨kept, told, asked, reports⟩ := calm.reports_cancel h k
    exact ⟨kept, told, asked, _, reports⟩
  | glimpse key requester =>
    obtain ⟨peeked, reports⟩ := calm.reports_glimpse key requester k
    exact ⟨_, _, _, peeked, reports⟩
  | _ => exact ordinary.elim

end Calm
end Namespace

namespace System

/-- With no other in progress, an operation can be carried out to its end. However that is done, each
lock has been sent just this: if it waited or was converting and now is granted, one message that it
has been granted the mode it holds now; then, messages that ask it to give way, each of them about the
mode it is granted now and a lock that waits or is converting against it now; and if the operation is a
glimpse, one that asks about its cache, just if it is granted a mode that writes and is not the
requester's. -/
theorem notified_exactly {config : Config} {s : System} (reachable : Reachable config s)
    (quiet : s.quiet = true) {op : Operation} (ordinary : op.Ordinary) :
    (∃ t, s.Carries op t) ∧ ∀ t, s.Carries op t → ∀ k, ∃ kept told asked peeked,
      Namespace.Reports s.space op t.space k kept told asked peeked := by
  refine ⟨exists_carries reachable quiet ordinary, fun t carries k => ?_⟩
  rw [carries.space reachable quiet ordinary]
  exact (reachable.calm quiet).reports_perform ordinary k

/-- A writer goes, a reader comes to what it waited for, and is in another writer's way. -/
theorem notified_exactly_handed_on :
    let s := (fresh {}).follow
      (Move.through (.enqueue { key := ⟨1, 0⟩, mode := .exclusive, owner := ⟨"a"⟩ }) 0 ++
        Move.through (.enqueue { key := ⟨1, 0⟩, mode := .protectedRead, owner := ⟨"b"⟩ }) 1 ++
        Move.through (.enqueue { key := ⟨1, 0⟩, mode := .exclusive, owner := ⟨"c"⟩ }) 2)
    let op := Operation.cancel (HandleTable.upcoming ({} : HandleTable LockId))
    let t := (s.start op).follow [.carryOut 3, .take 3, .take 3, .carryOut 3]
    (t.space.lock 1).pending.map (·.kind) = [.completion, .blocking] ∧
      ∃ kept told asked peeked, Namespace.Reports s.space op t.space 1 kept told asked peeked ∧
        told = [.completed (t.space.lock 1) .protectedRead] := by
  intro s op t
  have reachable : Reachable {} s := reachable_follow rfl _
  have carries : s.Carries op t := by
    refine ⟨by decide +kernel, _, fun m member => ?_, rfl⟩
    have tasks : s.tasks.size = 3 := by decide +kernel
    rw [tasks]
    simp only [List.mem_cons, List.not_mem_nil, or_false] at member
    rcases member with rfl | rfl | rfl | rfl
    · exact .inr rfl
    · exact .inl rfl
    · exact .inl rfl
    · exact .inr rfl
  have ordinary : op.Ordinary := trivial
  obtain ⟨-, all⟩ := notified_exactly reachable (by decide +kernel) ordinary
  obtain ⟨kept, told, asked, peeked, reports⟩ := all t carries 1
  have waits : (s.space.lock 1).state = .waiting := by decide +kernel
  have granted : (t.space.lock 1).state = .granted := by decide +kernel
  obtain ⟨mode, held, same⟩ := reports.gains ⟨.inl waits, granted⟩
  have holds : (t.space.lock 1).grantedMode = some .protectedRead := by decide +kernel
  obtain rfl := Option.some.inj (holds.symm.trans held)
  exact ⟨by decide +kernel, kept, told, asked, peeked, reports, same⟩

end System
end LockManager
