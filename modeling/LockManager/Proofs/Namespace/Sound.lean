import LockManager.Proofs.HandleTable
import LockManager.Proofs.Ledger.Sound
import LockManager.Proofs.Namespace

set_option autoImplicit false

/-!
Every stage of an operation leaves a sound ledger, and a handle table that resolves the handles of
the locks not yet done with.
-/

namespace LockManager
namespace Namespace

structure Sound (ns : Namespace) : Prop where
  ledger : ns.ledger.Sound
  placed : ∀ l, l < ns.locks.size → (ns.lock l).resource < ns.resources.size
  indexed : ∀ k r, ns.index.get? k = some r → r < ns.resources.size
  listed : ∀ l ∈ ns.live, l < ns.locks.size
  handles : ns.handles.slots.size ≤ UInt32.size → ns.handles.Proper ∧
    ∀ h l, ns.handles.get? h = some l ↔
      l < ns.locks.size ∧ (ns.lock l).handle = h ∧ (ns.lock l).retired = false

/-- No lock has come or gone. -/
structure Onward (ns ns' : Namespace) : Prop where
  becomes : Becomes ns ns'.ledger ns'
  sound : ns'.ledger.Sound
  keeps : Ledger.Keeps ns.ledger ns'.ledger

variable {ns ns' : Namespace} {b : Ledger} {l : LockId} {r : ResourceId}

theorem Becomes.lock (turns : Becomes ns b ns') (l : LockId) : (ns'.lock l).outline = b.lock l := by
  rw [← turns.ledger]
  rfl

theorem Becomes.size (turns : Becomes ns b ns') : ns'.locks.size = b.size := by
  rw [← turns.ledger]
  rfl

/-- No claim and nobody who is done with has changed. -/
theorem Sound.becomes (sound : ns.Sound) (turns : Becomes ns b ns') (ok : b.Sound)
    (size : b.size = ns.locks.size) (claim : ∀ k, (b.lock k).claim = (ns.lock k).claim)
    (retired : ∀ k, (b.lock k).retired = (ns.lock k).retired)
    (placed : ∀ k, k < ns.locks.size → (b.lock k).resource < ns'.resources.size) : ns'.Sound := by
  have count : ns'.locks.size = ns.locks.size := turns.size.trans size
  refine ⟨turns.ledger ▸ ok, ?_, ?_, ?_, ?_⟩
  · intro k known
    rw [← Lock.outline_resource, turns.lock]
    exact placed k (count ▸ known)
  · intro k q found
    rcases turns.indexed k q found with old | below
    · exact Nat.lt_of_lt_of_le (sound.indexed k q old) turns.grown
    · exact below
  · intro k inside
    rw [live, turns.handles] at inside
    exact count ▸ sound.listed k inside
  · rw [turns.handles]
    intro room
    refine ⟨(sound.handles room).1, fun h k => ?_⟩
    have handle : (ns'.lock k).handle = (ns.lock k).handle := by
      rw [Lock.handle, Lock.handle, ← claim, ← turns.lock]
      rfl
    have gone : (ns'.lock k).retired = (ns.lock k).retired := by
      rw [← retired, ← turns.lock]
      rfl
    rw [(sound.handles room).2, count, handle, gone]

/-- Only one lock has changed, and it is neither another's nor done with. -/
theorem Sound.becomes_set (sound : ns.Sound) {x : Lock} (turns : Becomes ns (ns.ledger.set l x) ns')
    (ok : (ns.ledger.set l x).Sound) (claim : x.claim = (ns.lock l).claim)
    (retired : x.retired = (ns.lock l).retired) (placed : x.resource < ns'.resources.size) :
    ns'.Sound := by
  apply sound.becomes turns ok rfl
  · intro k
    by_cases same : k = l
    · rw [same, Ledger.lock_set_self, claim]
    · rw [Ledger.lock_set_of_ne _ _ same]
      rfl
  · intro k
    by_cases same : k = l
    · rw [same, Ledger.lock_set_self, retired]
    · rw [Ledger.lock_set_of_ne _ _ same]
      rfl
  · intro k below
    by_cases same : k = l
    · rw [same, Ledger.lock_set_self]
      exact placed
    · rw [Ledger.lock_set_of_ne _ _ same]
      exact Nat.lt_of_lt_of_le (sound.placed k below) turns.grown

theorem Onward.of_becomes (turns : Becomes ns b ns') (kept : b.Sound ∧ Ledger.Keeps ns.ledger b) :
    Onward ns ns' := by
  obtain rfl := turns.ledger
  exact ⟨turns, kept.1, kept.2⟩

theorem Alike.onward (same : Alike ns ns') (sound : ns.Sound) : Onward ns ns' :=
  .of_becomes same ⟨sound.ledger, .refl _⟩

theorem Sound.onward (sound : ns.Sound) (onward : Onward ns ns') : ns'.Sound := by
  refine sound.becomes onward.becomes onward.sound onward.keeps.size
    (fun k => (onward.keeps.lock k).claim) (fun k => (onward.keeps.lock k).retired) ?_
  intro k known
  rw [(onward.keeps.lock k).resource]
  exact Nat.lt_of_lt_of_le (sound.placed k known) onward.becomes.grown

theorem Sound.alike (sound : ns.Sound) (same : Alike ns ns') : ns'.Sound :=
  sound.onward (same.onward sound)

theorem sound_create {config : Config} (created : create config = .ok ns) : ns.Sound := by
  obtain ⟨-, rfl⟩ := create_eq_ok.mp created
  refine ⟨.of_empty rfl fun _ => rfl, fun l below => ?_, fun k r found => ?_,
    fun l inside => ?_, fun _ => ⟨HandleTable.proper_empty, fun h l => ?_⟩⟩
  · exact absurd below (Nat.not_lt_zero l)
  · cases found
  · cases inside
  · exact iff_of_false (by simp [HandleTable.get?]) fun found => Nat.not_lt_zero l found.1

/-! ### Coming -/

/-- The ledger as whoever has the queues of `r` sees it, after a change of the lock `l`. -/
theorem ledger_arbiter_entered (known : l < ns.locks.size) (s : LockState) (r : ResourceId) :
    ((ns.arbiter r).modifyLock l fun _ => (ns.lock l).enter s).ledger r ns.ledger.queues =
      ns.ledger.set l ((ns.ledger.lock l).enter s) :=
  ns.ledger_arbiter_modifyLock r known _

/-- A lock that is let in is new, or is leaving and stays as it is. -/
theorem submit_ok {reply : Reply} (done : ns.submit l r = .ok (reply, ns')) :
    ns' = ns ∨ (ns.lock l).state = .new ∧
      ns' = ns.conclude r
        (((ns.arbiter r).modifyLock l fun _ => (ns.lock l).enter .enqueued).receive
          (ns.lock l).claim (ns.lock l).requestedMode) := by
  unfold submit at done
  cases running : ns.ensureRunning with
  | error e => simp [running, bind, Except.bind] at done
  | ok _ =>
    simp only [running, bind, Except.bind] at done
    split at done
    · cases done
      exact .inl rfl
    · cases state : (ns.lock l).state with
      | new =>
        rw [Lock.advance?_of_allows (by rw [state]; rfl)] at done
        simp only [pure, Except.pure, Except.ok.injEq, Prod.mk.injEq] at done
        exact .inr ⟨rfl, done.2.symm⟩
      | _ =>
        simp [Lock.advance?, state, LockState.allows, throw, throwThe, MonadExceptOf.throw] at done

/-- A new lock is let in as long as the namespace is running. -/
theorem submit_of_new (new : (ns.lock l).state = .new) (running : ns.stopping = false)
    {a : Arbiter} (r : ResourceId)
    (entered : (ns.arbiter r).modifyLock l (fun _ => (ns.lock l).enter .enqueued) = a) :
    ns.submit l r = .ok
      ((ns.conclude r (a.receive (ns.lock l).claim (ns.lock l).requestedMode)).reply l,
        ns.conclude r (a.receive (ns.lock l).claim (ns.lock l).requestedMode)) := by
  have edge : (ns.lock l).advance? .enqueued = some ((ns.lock l).enter .enqueued) :=
    Lock.advance?_of_allows (by rw [new]; rfl)
  unfold submit ensureRunning
  simp only [running, new, LockState.leaving, edge, bind, Except.bind, pure, Except.pure,
    Bool.false_eq_true, if_false, entered]

/-- A new lock that is brought to its resource waits if it is blocked. Otherwise it is granted, and
that is counted on whoever it passes over. -/
theorem Sound.submit_becomes (sound : ns.Sound) (known : l < ns.locks.size)
    (bound : (ns.lock l).resource = r) {reply : Reply} (done : ns.submit l r = .ok (reply, ns')) :
    ns' = ns ∨ (ns.lock l).state = .new ∧ ∃ b,
      b = ns.ledger.set l ((ns.ledger.lock l).enter .enqueued) ∧
      (¬b.Blocked r ⟨(ns.lock l).claim, (ns.lock l).requestedMode⟩ ∧
          Ledger.Passes r b (b.charge r (ns.lock l).claim (ns.lock l).requestedMode) ∧
          Becomes ns ((b.charge r (ns.lock l).claim (ns.lock l).requestedMode).accept l) ns' ∨
        b.Blocked r ⟨(ns.lock l).claim, (ns.lock l).requestedMode⟩ ∧
          Becomes ns (b.wait l) ns') := by
  rcases submit_ok done with same | ⟨new, rfl⟩
  · exact .inl same
  · have held : r < ns.resources.size := bound ▸ sound.placed l known
    have start := ledger_arbiter_entered known .enqueued r
    have self : ((ns.arbiter r).modifyLock l fun _ => (ns.lock l).enter .enqueued).lock l =
        (ns.lock l).enter .enqueued := Arena.get_modify_self _ _ known
    have coherent := sound.ledger.coherent.enqueue known new
    rw [← start] at coherent
    have received := Arbiter.receive_cases coherent (l := l)
      (Nat.lt_of_lt_of_eq known (Arena.size_modify ..).symm) (by rw [self]; exact bound)
      (by rw [self]; rfl)
    rw [start, self] at received
    refine .inr ⟨new, _, rfl, ?_⟩
    rcases received with ⟨free, passed, after⟩ | ⟨blocked, after⟩
    · exact .inl ⟨free, passed, ns.becomes_conclude held passed.config after⟩
    · exact .inr ⟨blocked, ns.becomes_conclude held rfl after⟩

theorem Sound.submit (sound : ns.Sound) (known : l < ns.locks.size)
    (bound : (ns.lock l).resource = r) {reply : Reply}
    (done : ns.submit l r = .ok (reply, ns')) : Onward ns ns' := by
  rcases sound.submit_becomes known bound done with rfl |
    ⟨new, _, rfl, ⟨free, passed, turns⟩ | ⟨blocked, turns⟩⟩
  · exact (Alike.refl ns').onward sound
  · have self := ns.ledger.lock_set_self l ((ns.ledger.lock l).enter .enqueued)
    obtain ⟨n, same⟩ := passed.lock l
    refine .of_becomes turns (sound.ledger.accept known new passed ?_)
    rw [same, passed.opposed, self]
    refine Ledger.not_opposed_of_not_blocked (r := r) ?_ ?_ <;> rw [self]
    · exact bound
    · exact free
  · exact .of_becomes turns (sound.ledger.wait known new (bound.symm ▸ blocked))

theorem alike_ask (held : r < ns.resources.size) (requester : Owner) :
    Alike ns (ns.ask r requester).2 := by
  have same : ((ns.arbiter r).glimpse requester).1.ledger r ns.ledger.queues = ns.ledger :=
    (Arbiter.ledger_glimpse ..).trans (ns.ledger_arbiter r)
  exact ns.becomes_conclude held rfl same

theorem Sound.ask (sound : ns.Sound) (held : r < ns.resources.size) (requester : Owner) :
    Onward ns (ns.ask r requester).2 :=
  (alike_ask held requester).onward sound

/-! ### Changing mode -/

/-- The queues in hand, with `l` asking for another mode. -/
def asking (ns : Namespace) (l : LockId) (mode : Mode) (r : ResourceId) : Arbiter :=
  (ns.arbiter r).modifyLock l fun _ => (ns.lock l).ask mode

theorem changeMode_ok {mode : Mode} {status : ConvertStatus}
    (done : ns.changeMode l mode r = .ok (status, ns')) :
    ns' = ns ∨ (ns.lock l).state = .granted ∧
      ((ns.asking l mode r).opposed (ns.lock l).claim mode = true ∧
          ns' = ns.conclude r (((ns.asking l mode r).modifyQueues
            (·.addConverting ⟨(ns.lock l).claim, mode⟩)).askHolders (ns.lock l).claim mode) ∨
        (ns.asking l mode r).opposed (ns.lock l).claim mode = false ∧ ∃ a,
          (ns.asking l mode r).convert? (ns.lock l).claim mode false = some a ∧
            ns' = ns.conclude r a.reprocess) := by
  unfold changeMode at done
  dsimp only at done
  cases held : (ns.lock l).grantedMode with
  | none => simp [held, throw, throwThe, MonadExceptOf.throw] at done
  | some old =>
    cases state : (ns.lock l).state with
    | granted =>
      rw [held, Lock.advance?_of_allows (by rw [state]; rfl)] at done
      by_cases same : old = mode
      · simp only [same, if_true, pure, Except.pure, Except.ok.injEq, Prod.mk.injEq] at done
        exact .inl done.2.symm
      · have asking : (ns.arbiter r).modifyLock l (fun _ =>
            { (ns.lock l).enter .converting with requestedMode := mode, bypassed := 0 }) =
            ns.asking l mode r := rfl
        simp only [same, if_false, asking] at done
        refine .inr ⟨rfl, ?_⟩
        cases against : (ns.asking l mode r).opposed (ns.lock l).claim mode with
        | true =>
          simp only [against, if_true, pure, Except.pure, Except.ok.injEq, Prod.mk.injEq] at done
          exact .inl ⟨rfl, done.2.symm⟩
        | false =>
          cases converted : (ns.asking l mode r).convert? (ns.lock l).claim mode false with
          | none => simp [against, converted, throw, throwThe, MonadExceptOf.throw] at done
          | some a =>
            simp only [against, converted, pure, Except.pure, Bool.false_eq_true, if_false,
              Except.ok.injEq, Prod.mk.injEq] at done
            exact .inr ⟨rfl, a, rfl, done.2.symm⟩
    | _ => simp [held, Lock.advance?, state, LockState.allows, throw, throwThe,
        MonadExceptOf.throw] at done

/-- Nothing is done for a lock that holds the mode already. -/
theorem changeMode_of_held {mode : Mode} {status : ConvertStatus}
    (held : (ns.lock l).grantedMode = some mode)
    (done : ns.changeMode l mode r = .ok (status, ns')) : ns' = ns := by
  unfold changeMode at done
  cases edge : (ns.lock l).advance? .converting with
  | none =>
    simp only [held, edge] at done
    cases done
  | some entered =>
    simp only [held, edge, if_true] at done
    cases done
    rfl

theorem ledger_asking (known : l < ns.locks.size) (mode : Mode) (r : ResourceId) :
    (ns.asking l mode r).ledger r ns.ledger.queues =
      ns.ledger.set l ((ns.ledger.lock l).ask mode) :=
  ns.ledger_arbiter_modifyLock r known fun _ => (ns.lock l).ask mode

theorem lock_asking (known : l < ns.locks.size) (mode : Mode) (r : ResourceId) :
    (ns.asking l mode r).lock l = (ns.lock l).ask mode :=
  Arena.get_modify_self _ _ known

/-- A change of mode at once is a step of the ledger. -/
theorem ledger_switching (sound : ns.Sound) (known : l < ns.locks.size) {mode : Mode} {a : Arbiter}
    (converted : (ns.asking l mode (ns.lock l).resource).convert? (ns.lock l).claim mode false =
      some a) :
    a.ledger (ns.lock l).resource ns.ledger.queues = ns.ledger.switch l mode := by
  have named : (ns.lock l).claim.id = l := sound.ledger.coherent.named l known
  have self := lock_asking known mode (ns.lock l).resource
  have edge : ((ns.asking l mode (ns.lock l).resource).lock l).state.allows .granted = true := by
    rw [self]
    rfl
  have known' : l < (ns.asking l mode (ns.lock l).resource).locks.size :=
    Nat.lt_of_lt_of_eq known (Arena.size_modify ..).symm
  obtain ⟨a', same, after⟩ := Arbiter.ledger_convert (a := ns.asking l mode (ns.lock l).resource)
    (r := (ns.lock l).resource) ns.ledger.queues id (ns.lock l).claim (by rwa [named])
    (by rw [named, self]; rfl) mode false (by rwa [named])
  obtain rfl : a' = a := Option.some.inj (same.symm.trans converted)
  rw [after, ledger_asking known, named, Ledger.lock_set_self, Ledger.home_set, Ledger.seat_set]
  all_goals rfl

/-- A granted lock that asks for another mode waits for it, or has it at once and the resource is
looked at again. -/
theorem Sound.changeMode_becomes (sound : ns.Sound) (known : l < ns.locks.size)
    (bound : (ns.lock l).resource = r) {mode : Mode} {status : ConvertStatus}
    (done : ns.changeMode l mode r = .ok (status, ns')) :
    ns' = ns ∨ (ns.lock l).state = .granted ∧
      (ns.ledger.opposed l mode = true ∧ Becomes ns (ns.ledger.pend l mode) ns' ∨
        ns.ledger.opposed l mode = false ∧ ∃ b, Ledger.Awards r (ns.ledger.switch l mode) b ∧
          b.Settled r ∧ Becomes ns b ns') := by
  rcases changeMode_ok done with same | ⟨granted, decided⟩
  · exact .inl same
  · subst bound
    have held := sound.placed l known
    refine .inr ⟨granted, ?_⟩
    rcases decided with ⟨blocked, rfl⟩ | ⟨free, a, converted, rfl⟩
    · have pended := Arbiter.ledger_modifyQueues (b := ns.ledger) (l := l)
        (·.addConverting ⟨(ns.lock l).claim, mode⟩) rfl (ledger_asking known mode _)
      have after := (Arbiter.ledger_askHolders (ns.lock l).resource ns.ledger.queues _
        (ns.lock l).claim mode).trans pended
      exact .inl ⟨blocked, ns.becomes_conclude held rfl after⟩
    · have after := ledger_switching sound known converted
      have switched := sound.ledger.coherent.switch known granted free
      obtain ⟨awards, settled⟩ := Arbiter.reprocess_settles ns.ledger.queues
        (after.symm ▸ switched)
      rw [after] at awards
      have config := (Ledger.Keeps.grants awards.grants).config
      exact .inr ⟨free, _, awards, settled, ns.becomes_conclude held config rfl⟩

theorem Sound.changeMode (sound : ns.Sound) (known : l < ns.locks.size)
    (bound : (ns.lock l).resource = r) {mode : Mode} {status : ConvertStatus}
    (done : ns.changeMode l mode r = .ok (status, ns')) : Onward ns ns' := by
  subst bound
  rcases sound.changeMode_becomes known rfl done with rfl |
    ⟨granted, ⟨blocked, turns⟩ | ⟨free, b, awards, settled, turns⟩⟩
  · exact (Alike.refl ns').onward sound
  · exact .of_becomes turns (sound.ledger.pend known granted blocked)
  · exact .of_becomes turns (sound.ledger.switch known granted free awards.grants settled)

/-! ### Going -/

theorem mark_some (known : l < ns.locks.size) (marked : ns.mark? l = some ns') :
    (ns.lock l).state.leaving = false ∧
      Becomes ns (ns.ledger.set l ((ns.ledger.lock l).enter .canceling)) ns' := by
  obtain ⟨x, entered, rfl⟩ := Option.map_eq_some_iff.mp marked
  unfold Lock.advance? at entered
  split at entered
  · next edge =>
    obtain rfl := Option.some.inj entered
    exact ⟨LockState.allows_canceling_iff.mp edge,
      ns.becomes_modifyLock known fun _ => (ns.lock l).enter .canceling⟩
  · cases entered

theorem Sound.mark (sound : ns.Sound) (known : l < ns.locks.size) (marked : ns.mark? l = some ns') :
    ns'.Sound := by
  obtain ⟨stays, turns⟩ := mark_some known marked
  exact sound.becomes_set turns (sound.ledger.mark known stays) rfl rfl
    (Nat.lt_of_lt_of_le (sound.placed l known) turns.grown)

/-- What a lock leaves behind. -/
structure Left (ns : Namespace) (l : LockId) (ns' : Namespace) (b : Ledger) : Prop where
  sound : ns'.Sound
  grown : ns.resources.size ≤ ns'.resources.size
  keeps : Ledger.Keeps (ns.ledger.leave l) b
  ledger : ns'.ledger = b.set l { b.lock l with retired := true }

theorem Left.lock (left : Left ns l ns' b) (k : LockId) :
    (ns'.lock k).outline = (b.set l { b.lock l with retired := true }).lock k := by
  rw [← left.ledger]
  rfl

theorem Left.stays (left : Left ns l ns' b) {k : LockId} (other : k ≠ l) :
    Ledger.Stays (ns.lock k).outline (ns'.lock k).outline := by
  rw [left.lock, Ledger.lock_set_of_ne _ _ other]
  exact left.keeps.stays_of_leave other

/-- Taking a marked lock out of the queues is a step of the ledger. -/
theorem ledger_departing (known : l < ns.locks.size) (bound : (ns.lock l).resource = r)
    (canceling : (ns.lock l).state = .canceling) :
    (((ns.arbiter r).modifyQueues (·.remove l)).modifyLock l fun lock =>
        { (lock.advance? .canceled).getD lock with
          grantedMode := none, blockingSentAt := none, pending := [] }).ledger r ns.ledger.queues =
      ns.ledger.leave l := by
  have edge : (ns.lock l).state.allows .canceled = true := by
    rw [canceling]
    rfl
  have released := ns.ledger_arbiter_modifyLock r known fun lock =>
    { (lock.advance? .canceled).getD lock with
      grantedMode := none, blockingSentAt := none, pending := [] }
  rw [Lock.advance?_of_allows edge] at released
  exact Arbiter.ledger_modifyQueues (·.remove l) bound released

/-- In the ledger a lock that has gone is done with. -/
theorem Becomes.retire (turns : Becomes ns b ns') (known : l < b.size) :
    Becomes ns (b.set l { b.lock l with retired := true })
      (ns'.modifyLock l ({ · with retired := true })) := by
  obtain rfl := turns.ledger
  exact turns.trans (ns'.becomes_modifyLock known ({ · with retired := true }))

/-- Giving back the handle of a lock that is done with. -/
theorem left_of_becomes (sound : ns.Sound) (known : l < ns.locks.size)
    (stays : (ns.lock l).retired = false) (keeps : Ledger.Keeps (ns.ledger.leave l) b)
    (turns : Becomes ns (b.set l { b.lock l with retired := true }) ns')
    (ok : (b.set l { b.lock l with retired := true }).Sound) :
    Left ns l { ns' with handles := ns'.handles.remove (ns.lock l).handle } b := by
  have lock : ∀ k, (ns'.lock k).claim = (ns.lock k).claim ∧
      (ns'.lock k).resource = (ns.lock k).resource ∧
      (ns'.lock k).retired = if k = l then true else (ns.lock k).retired := by
    intro k
    rw [← Lock.outline_claim, ← Lock.outline_resource, show (ns'.lock k).retired =
      (ns'.lock k).outline.retired from rfl, turns.lock]
    by_cases here : k = l
    · subst here
      rw [Ledger.lock_set_self, if_pos rfl]
      exact ⟨keeps.left_of_leave.1, keeps.left_of_leave.2.1, rfl⟩
    · have still := keeps.stays_of_leave here
      rw [Ledger.lock_set_of_ne _ _ here, if_neg here]
      exact ⟨still.claim, still.resource, still.retired⟩
  have count : ns'.locks.size = ns.locks.size := turns.size.trans keeps.size
  refine ⟨⟨?_, fun k below => ?_, fun k r found => ?_, fun k inside => ?_, fun room => ?_⟩,
    turns.grown, keeps, turns.ledger⟩
  · exact turns.ledger.symm ▸ ok
  · exact Nat.lt_of_lt_of_le ((lock k).2.1.symm ▸ sound.placed k (count ▸ below)) turns.grown
  · rcases turns.indexed k r found with old | below
    · exact Nat.lt_of_lt_of_le (sound.indexed k r old) turns.grown
    · exact below
  · have old := HandleTable.mem_entries_remove inside
    rw [turns.handles] at old
    exact count ▸ sound.listed k old
  · rw [HandleTable.size_remove, turns.handles] at room
    obtain ⟨proper, resolves⟩ := sound.handles room
    rw [turns.handles]
    refine ⟨proper.remove _, count.symm ▸ HandleTable.Resolves.remove resolves known stays
      ((lock l).2.2.trans (if_pos rfl)) (fun k => ?_) fun k other => ?_⟩
    · exact congrArg Claim.handle (lock k).1
    · exact (lock k).2.2.trans (if_neg other)

/-- A marked lock is taken out of the queues, the resource is looked at again, and the lock is done
with. -/
theorem Sound.leave_becomes (sound : ns.Sound) (known : l < ns.locks.size)
    (bound : (ns.lock l).resource = r) (canceling : (ns.lock l).state = .canceling) :
    ∃ b ns₁, Ledger.Awards r (ns.ledger.leave l) b ∧ b.Settled r ∧ Becomes ns b ns₁ ∧
      ns.leave l r = { ns₁.modifyLock l ({ · with retired := true }) with
        handles := ns₁.handles.remove (ns.lock l).handle } := by
  subst bound
  have departing := ledger_departing known rfl canceling
  unfold Namespace.leave
  dsimp only at departing ⊢
  generalize Arbiter.modifyLock _ l _ = a at departing ⊢
  obtain ⟨awards, settled⟩ := Arbiter.reprocess_settles ns.ledger.queues
    (departing ▸ sound.ledger.coherent.leave known)
  rw [departing] at awards
  have keeps := Ledger.Keeps.grants awards.grants
  have taken := ns.becomes_conclude (sound.placed l known) keeps.config rfl
  have dropped := taken.alike
    (alike_dropReplay _ ((ns.conclude (ns.lock l).resource a.reprocess).lock l).claim)
  have handle : ((ns.conclude (ns.lock l).resource a.reprocess).lock l).claim.handle =
      (ns.lock l).handle := by
    have claim := keeps.left_of_leave.1
    rw [← taken.lock, Lock.outline_claim] at claim
    rw [claim]
    rfl
  rw [handle]
  exact ⟨_, _, awards, settled, dropped, rfl⟩

theorem Sound.leave (sound : ns.Sound) (known : l < ns.locks.size)
    (bound : (ns.lock l).resource = r) (canceling : (ns.lock l).state = .canceling) :
    ∃ b, Left ns l (ns.leave l r) b := by
  subst bound
  obtain ⟨b, ns₁, awards, settled, turns, same⟩ := sound.leave_becomes known rfl canceling
  have keeps := Ledger.Keeps.grants awards.grants
  have stays : (ns.lock l).retired = false := by
    apply Bool.eq_false_iff.mpr
    intro retired
    have canceled := (sound.ledger.retired l known).mp retired
    rw [show (ns.ledger.lock l).state = .canceling from canceling] at canceled
    cases canceled
  have retired := turns.retire (Nat.lt_of_lt_of_eq known keeps.size.symm)
  rw [same]
  exact ⟨b, left_of_becomes sound known stays keeps retired
    (sound.ledger.leave known awards.grants settled)⟩

/-! ### Moving -/

/-- A lock that moves is new, and moves to the resource it was sent to. -/
theorem Sound.move (sound : ns.Sound) (known : l < ns.locks.size) {target : ResourceId}
    (inside : target < ns.resources.size) :
    (ns.move l target).2.2.Sound ∧ ∃ b, Becomes ns b (ns.move l target).2.2 ∧
      (b = ns.ledger ∨ b = ns.ledger.set l
        { ns.ledger.lock l with resource := target, key := (ns.resource target).key }) := by
  unfold Namespace.move
  dsimp only
  split
  · next new =>
    have turns := ns.becomes_modifyLock known
      ({ · with resource := target, key := (ns.resource target).key })
    exact ⟨sound.becomes_set turns (sound.ledger.rebind known new target _) rfl rfl inside, _,
      turns, .inr rfl⟩
  · exact ⟨sound, _, Alike.refl ns, .inl rfl⟩

/-! ### New locks -/

/-- A lock has been added to those there were. -/
structure Extends (ns ns' : Namespace) : Prop where
  sound : ns'.Sound
  config : ns'.config = ns.config
  size : ns'.locks.size = ns.locks.size + 1
  grown : ns.resources.size ≤ ns'.resources.size
  lock : ∀ k, k < ns.locks.size → (ns'.lock k).outline = (ns.lock k).outline
  new : (ns'.lock ns.locks.size).state = .new

theorem addLock_fst (ns : Namespace) (req : LockRequest) : (ns.addLock req).1 = ns.locks.size := by
  unfold addLock findOrCreate
  cases ns.index.get? req.key <;> rfl

theorem ledger_alloc (ns : Namespace) {x : Lock} (plain : x.outline = x)
    (handles : HandleTable LockId) (replays : Index (Owner × UInt64) Handle) :
    Namespace.ledger { ns with locks := ns.locks.alloc x, handles, replays } =
      ns.ledger.extend x := by
  simp only [Namespace.ledger, Ledger.extend, Ledger.mk.injEq]
  refine ⟨trivial, ns.locks.size_alloc x, ?_, rfl⟩
  funext k
  rw [Namespace.lock, ns.locks.get_alloc x]
  by_cases last : k = ns.locks.size
  · rw [if_pos last, last, Function.update_self, plain]
  · rw [if_neg last, Function.update_of_ne last]
    rfl

/-- The lock that the request for a resource in the index makes. -/
theorem Sound.alloc (sound : ns.Sound) {x : Lock} (replays : Index (Owner × UInt64) Handle)
    (fresh : x.claim.id = ns.locks.size) (handle : x.handle = ns.handles.upcoming)
    (plain : x.outline = x) (new : x.state = .new) (nothing : x.grantedMode = none)
    (stays : x.retired = false) (valid : x.claim.policy.fault? = none)
    (placed : x.resource < ns.resources.size) :
    Extends ns { ns with
      locks := ns.locks.alloc x
      handles := ns.handles.insertWith fun _ => ns.locks.size
      replays } := by
  have lock : ∀ k, (ns.locks.alloc x).get k = if k = ns.locks.size then x else ns.lock k :=
    ns.locks.get_alloc x
  have size : (ns.locks.alloc x).size = ns.locks.size + 1 := ns.locks.size_alloc x
  have ledger := ns.ledger_alloc plain (ns.handles.insertWith fun _ => ns.locks.size) replays
  refine ⟨⟨?_, ?_, sound.indexed, ?_, ?_⟩, rfl, size, Nat.le_refl _, ?_, ?_⟩
  · rw [ledger]
    exact sound.ledger.extend fresh new nothing stays valid
  · intro k below
    rw [Namespace.lock, lock]
    split
    · exact placed
    · next other =>
      exact sound.placed k
        (Nat.lt_of_le_of_ne (Nat.le_of_lt_succ (Nat.lt_of_lt_of_eq below size)) other)
  · intro k inside
    refine Nat.lt_of_lt_of_eq (Nat.lt_succ_of_le ?_) size.symm
    rcases HandleTable.mem_entries_insertWith inside with rfl | old
    · exact Nat.le_refl _
    · exact Nat.le_of_lt (sound.listed k old)
  · intro room
    obtain ⟨proper, resolves⟩ :=
      sound.handles (Nat.le_trans (HandleTable.size_le_insertWith _) room)
    refine ⟨proper.insertWith room, size.symm ▸ HandleTable.Resolves.insertWith resolves proper room
      ?_ ?_ fun k other => ?_⟩
    · rw [Namespace.lock, lock, if_pos rfl, handle]
    · rw [Namespace.lock, lock, if_pos rfl, stays]
    · rw [Namespace.lock, lock, if_neg other]
      exact ⟨rfl, rfl⟩
  · intro k below
    rw [Namespace.lock, lock, if_neg (Nat.ne_of_lt below)]
  · rw [Namespace.lock, lock, if_pos rfl]
    exact new

theorem Sound.addLock (sound : ns.Sound) {req : LockRequest} (valid : req.policy.fault? = none) :
    Extends ns (ns.addLock req).2 := by
  have same := ns.alike_findOrCreate req.key
  have start := sound.alike same
  have added := start.alloc (ns.addLock req).2.replays
    (x := .create
      { id := (ns.findOrCreate req.key).2.locks.size
        handle := (ns.findOrCreate req.key).2.handles.upcoming
        owner := req.owner, policy := req.policy, clientSeq := req.clientSeq }
      req.mode (ns.findOrCreate req.key).1 req.key (ns.findOrCreate req.key).2.config.historyDepth)
    rfl rfl rfl rfl rfl rfl valid (ns.findOrCreate_lt sound.indexed req.key)
  have size : (ns.findOrCreate req.key).2.locks.size = ns.locks.size := same.size
  refine ⟨added.sound, ?_, ?_, Nat.le_trans same.grown added.grown, fun k below => ?_, ?_⟩
  · exact added.config.trans (congrArg Ledger.config same.ledger)
  · exact added.size.trans (congrArg (· + 1) size)
  · exact (added.lock k (size.symm ▸ below)).trans (same.lock k)
  · rw [← size]
    exact added.new

theorem ledger_addLock (ns : Namespace) (req : LockRequest) :
    ∃ x, (ns.addLock req).2.ledger = ns.ledger.extend x ∧ x.claim.id = ns.locks.size ∧
      x.state = .new ∧ x.grantedMode = none ∧ x.claim.policy = req.policy := by
  have same := ns.alike_findOrCreate req.key
  have size : (ns.findOrCreate req.key).2.locks.size = ns.locks.size := same.size
  refine ⟨.create
    { id := (ns.findOrCreate req.key).2.locks.size
      handle := (ns.findOrCreate req.key).2.handles.upcoming
      owner := req.owner, policy := req.policy, clientSeq := req.clientSeq }
    req.mode (ns.findOrCreate req.key).1 req.key (ns.findOrCreate req.key).2.config.historyDepth,
    ?_, size, rfl, rfl, rfl⟩
  rw [← same.ledger]
  exact (ns.findOrCreate req.key).2.ledger_alloc rfl _ (ns.addLock req).2.replays

theorem size_addLock (ns : Namespace) (req : LockRequest) :
    (ns.addLock req).2.locks.size = ns.locks.size + 1 := by
  obtain ⟨x, extended, -⟩ := ns.ledger_addLock req
  exact congrArg Ledger.size extended

theorem handles_addLock (ns : Namespace) (req : LockRequest) :
    (ns.addLock req).2.handles = ns.handles.insertWith fun _ => ns.locks.size := by
  have same := ns.alike_findOrCreate req.key
  have count : (ns.findOrCreate req.key).2.locks.size = ns.locks.size := same.size
  rw [← same.handles, ← count]
  rfl

/-- A request is refused, is a copy of an earlier one, or makes a lock. -/
theorem register_cases (ns : Namespace) (req : LockRequest) :
    (∃ e, ns.register req = .error e) ∨
      (∃ l, l ∈ ns.live ∧ ns.register req = .ok (.replay l, ns)) ∨
      req.policy.fault? = none ∧
        ns.register req = .ok (.fresh ns.locks.size, (ns.addLock req).2) := by
  unfold register
  cases running : ns.ensureRunning with
  | error e => exact .inl ⟨e, by simp [bind, Except.bind]⟩
  | ok _ =>
    cases valid : req.policy.fault? with
    | some fault =>
      exact .inl ⟨_, by simp [bind, Except.bind, throw, throwThe, MonadExceptOf.throw]; rfl⟩
    | none =>
      by_cases nobody : req.owner.name.isEmpty
      · exact .inl ⟨_, by
          simp [nobody, bind, Except.bind, throw, throwThe, MonadExceptOf.throw]
          rfl⟩
      · cases found : ns.replayOf? req with
        | some l =>
          refine .inr (.inl ⟨l, ?_, by simp [nobody, bind, Except.bind, pure, Except.pure]⟩)
          unfold replayOf? at found
          obtain ⟨seq, -, found⟩ := Option.bind_eq_some_iff.mp found
          obtain ⟨h, -, found⟩ := Option.bind_eq_some_iff.mp found
          exact HandleTable.mem_entries_of_get? found
        | none =>
          refine .inr (.inr ⟨rfl, ?_⟩)
          simp [nobody, bind, Except.bind, pure, Except.pure, addLock_fst]

/-! ### Live locks -/

/-- The lock has been made and is not done with. -/
def Alive (ns : Namespace) (l : LockId) : Prop :=
  l < ns.locks.size ∧ (ns.lock l).retired = false

theorem Sound.alive (sound : ns.Sound) (known : l < ns.locks.size)
    (stays : (ns.lock l).state ≠ .canceled) : ns.Alive l :=
  ⟨known, Bool.eq_false_iff.mpr fun gone => stays ((sound.ledger.retired l known).mp gone)⟩

theorem Sound.leaving_of_gone (sound : ns.Sound) (known : l < ns.locks.size) (gone : ¬ns.Alive l) :
    (ns.lock l).state.leaving = true := by
  have retired : (ns.lock l).retired = true := by
    by_contra stays
    exact gone ⟨known, Bool.eq_false_iff.mpr stays⟩
  have canceled : (ns.lock l).state = .canceled := (sound.ledger.retired l known).mp retired
  rw [canceled]
  rfl

/-- Every entry is a live lock's, on the resource that the lock is bound to. -/
theorem Sound.alive_of_mem (sound : ns.Sound) {r : ResourceId} {e : Entry}
    (inside : e ∈ (ns.resource r).queues.entries) :
    ns.Alive e.claim.id ∧ (ns.lock e.claim.id).resource = r := by
  have c := sound.ledger.coherent
  have seat := c.seat_of_mem inside
  refine ⟨sound.alive (c.known r e inside) fun canceled => ?_, c.bound inside⟩
  rw [Lock.Seated, show (ns.ledger.lock e.claim.id).state = .canceled from canceled] at seat
  exact Queues.not_mem_of_empty seat.of_canceled.2 inside rfl

/-- The table of handles lists the locks not done with, as long as slot numbers fit a handle. -/
theorem Sound.mem_live_iff (sound : ns.Sound) (room : ns.handles.slots.size ≤ UInt32.size)
    {l : LockId} : l ∈ ns.live ↔ ns.Alive l := by
  obtain ⟨-, resolves⟩ := sound.handles room
  constructor
  · intro inside
    obtain ⟨h, found⟩ := HandleTable.exists_get?_of_mem room inside
    obtain ⟨known, -, stays⟩ := (resolves h l).mp found
    exact ⟨known, stays⟩
  · rintro ⟨known, stays⟩
    exact HandleTable.mem_entries_of_get? ((resolves _ l).mpr ⟨known, rfl, stays⟩)

/-- The handle of a lock not done with names it. -/
theorem Sound.lookup_handle (sound : ns.Sound) (room : ns.handles.slots.size ≤ UInt32.size)
    {l : LockId} (alive : ns.Alive l) : ns.lookup (ns.lock l).handle = .ok l := by
  obtain ⟨-, resolves⟩ := sound.handles room
  unfold lookup
  rw [(resolves _ l).mpr ⟨alive.1, rfl, alive.2⟩]

end Namespace
end LockManager
