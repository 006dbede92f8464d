import LockManager.Proofs.Namespace.Resting

set_option autoImplicit false

/-!
What operations that run to their end come to. An enqueue makes a lock that is granted or waits; a
cancel is done with a lock; on the client side a new lock may move.
-/

namespace LockManager
namespace Namespace

variable {ns ns' : Namespace} {l : LockId}

theorem lock_addLock (req : LockRequest) (k : LockId) : (ns.addLock req).2.lock k =
    if k = ns.locks.size then
      .create { id := ns.locks.size, handle := ns.handles.upcoming, owner := req.owner
                policy := req.policy, clientSeq := req.clientSeq }
        req.mode (ns.findOrCreate req.key).1 req.key ns.config.historyDepth
    else ns.lock k := by
  have roster := ns.roster_findOrCreate req.key
  unfold addLock
  generalize ns.findOrCreate req.key = found at roster ⊢
  obtain ⟨r, ns₁⟩ := found
  have locks : ns₁.locks = ns.locks := (congrArg Namespace.locks roster :)
  have handles : ns₁.handles = ns.handles := (congrArg Namespace.handles roster :)
  have config : ns₁.config = ns.config := (congrArg Namespace.config roster :)
  dsimp only
  rw [locks, handles, config]
  exact Arena.get_alloc ..

theorem lock_addLock_of_lt {k : LockId} (known : k < ns.locks.size) (req : LockRequest) :
    (ns.addLock req).2.lock k = ns.lock k :=
  (ns.lock_addLock req k).trans (if_neg (Nat.ne_of_lt known))

theorem get?_of_dropReplay {claim : Claim} {k : Owner × UInt64} {h : Handle}
    (found : (ns.dropReplay claim).replays.get? k = some h) : ns.replays.get? k = some h := by
  unfold dropReplay at found
  split at found
  · split at found
    · rw [Index.get?_erase] at found
      split at found
      · cases found
      · exact found
    · exact found
  · exact found

/-- The handle that is issued next has not been issued before. -/
def Fresh (ns : Namespace) : Prop :=
  (ns.handles.free = [] → ns.handles.slots.size < UInt32.size) ∧
    ∀ k < ns.locks.size, (ns.lock k).handle ≠ ns.handles.upcoming

instance (ns : Namespace) : Decidable ns.Fresh :=
  inferInstanceAs (Decidable (_ ∧ _))

/-- A lock has been made on a request, and nothing else has changed. -/
structure Adds (ns : Namespace) (req : LockRequest) (ns' : Namespace) : Prop where
  resting : ns'.Resting
  steady : Steady ns ns'
  size : ns'.locks.size = ns.locks.size + 1
  old : ∀ k, k < ns.locks.size → ns'.lock k = ns.lock k
  new : ∃ r, ns'.lock ns.locks.size =
    .create { id := ns.locks.size, handle := ns.handles.upcoming, owner := req.owner
              policy := req.policy, clientSeq := req.clientSeq } req.mode r req.key ns.config.historyDepth
  replays : ∀ k h, ns'.replays.get? k = some h →
    ns.replays.get? k = some h ∨ ∃ seq, req.clientSeq = some seq ∧ k = (req.owner, seq)

/-- A lock has been made on a request and brought to its resource, where it stands so now. It has been
told of no grant. -/
structure Enrols (ns : Namespace) (req : LockRequest) (standing : Standing) (ns' : Namespace) : Prop where
  resting : ns'.Resting
  steady : Steady ns ns'
  size : ns'.locks.size = ns.locks.size + 1
  old : ∀ k, k < ns.locks.size → Spared ns ns' k
  alive : ns'.Alive ns.locks.size
  claim : (ns'.lock ns.locks.size).claim =
    { id := ns.locks.size, handle := ns.handles.upcoming, owner := req.owner, policy := req.policy
      clientSeq := req.clientSeq }
  key : (ns'.lock ns.locks.size).key = req.key
  standing : (ns'.lock ns.locks.size).standing = standing
  heard : ns.dispatcher.closed = false → (ns'.lock ns.locks.size).suppressed = false ∧
    completions (ns'.lock ns.locks.size).pending = [] ∧
    ∀ n ∈ (ns'.lock ns.locks.size).pending, n.handle = ns.handles.upcoming
  replays : ∀ k h, ns'.replays.get? k = some h →
    ns.replays.get? k = some h ∨ ∃ seq, req.clientSeq = some seq ∧ k = (req.owner, seq)

theorem Adds.alive {req : LockRequest} (adds : Adds ns req ns') : ns'.Alive ns.locks.size := by
  obtain ⟨r, new⟩ := adds.new
  refine ⟨Nat.lt_of_lt_of_eq (Nat.lt_succ_self _) adds.size.symm, ?_⟩
  rw [new]
  rfl

theorem Adds.enrols {ns₁ : Namespace} {req : LockRequest} {standing : Standing} (adds : Adds ns req ns₁)
    (puts : Puts ns₁ ns.locks.size standing ns') : Enrols ns req standing ns' := by
  obtain ⟨r, new⟩ := adds.new
  refine ⟨puts.resting, adds.steady.trans puts.steady, puts.size.trans adds.size, fun k below => ?_,
    puts.alive, ?_, ?_, puts.standing, fun opened => ?_,
    fun k h found => adds.replays k h (puts.replays k h found)⟩
  · exact Spared.trans (.of_eq (adds.old k below)) adds.steady
      (puts.spared k (Nat.ne_of_lt below))
  · rw [puts.claim, new]
    rfl
  · rw [puts.key, new]
    rfl
  · have hears := puts.hears (adds.steady.closed.trans opened)
    rw [new] at hears
    obtain ⟨more, later, mine, none⟩ := hears.pending rfl
    rw [later]
    exact ⟨hears.suppressed, none, mine⟩

/-- Only a granted lock may ask for another mode. -/
theorem changeMode_refused (other : (ns.lock l).state ≠ .granted) {mode : Mode} {r : ResourceId} :
    ns.changeMode l mode r =
      .error (.protocolViolation (ns.lock l).handle (ns.lock l).state .convert) := by
  have edge : (ns.lock l).advance? .converting = none :=
    Lock.advance?_of_not_allows (mt LockState.allows_converting_iff.mp other)
  unfold changeMode
  dsimp only
  rw [edge]
  cases (ns.lock l).grantedMode <;> rfl

namespace Resting

/-! ### Going -/

theorem mark?_eq (rest : ns.Resting) (alive : ns.Alive l) :
    ns.mark? l = some (ns.modifyLock l fun _ => (ns.lock l).enter .canceling) := by
  have edge := (rest.settled alive).cancelable
  unfold mark?
  rw [Lock.advance?_of_allows edge]
  rfl

/-- A lock that is canceled is done with. -/
theorem cancelLock (rest : ns.Resting) (alive : ns.Alive l) :
    Deals ns l (ns.cancelLock l) ∧ ((ns.cancelLock l).lock l).retired = true := by
  have marked := rest.mark?_eq alive
  unfold Namespace.cancelLock
  rw [marked]
  dsimp only
  have sound := rest.sound.mark alive.1 marked
  have counted := rest.counted.mark marked
  have lock := ns.lock_modifyLock (fun _ => (ns.lock l).enter .canceling) l
  have roster : Steady ns (ns.modifyLock l fun _ => (ns.lock l).enter .canceling) :=
    ⟨rfl, rfl, rfl, rfl⟩
  have size : (ns.modifyLock l fun _ => (ns.lock l).enter .canceling).locks.size = ns.locks.size :=
    Arena.size_modify ..
  have handles : (ns.modifyLock l fun _ => (ns.lock l).enter .canceling).handles = ns.handles := rfl
  have replays : (ns.modifyLock l fun _ => (ns.lock l).enter .canceling).replays = ns.replays := rfl
  generalize ns.modifyLock l _ = ns₁ at sound counted lock roster size handles replays ⊢
  have known : l < ns₁.locks.size := Nat.lt_of_lt_of_eq alive.1 size.symm
  have self : ns₁.lock l = (ns.lock l).enter .canceling := (lock l).trans (if_pos ⟨rfl, alive.1⟩)
  have old (k : LockId) (other : k ≠ l) : ns₁.lock k = ns.lock k :=
    (lock k).trans (if_neg fun both => other both.1.symm)
  have canceling : (ns₁.lock l).state = .canceling := by
    rw [self]
    rfl
  obtain ⟨b, left⟩ := sound.leave known rfl canceling
  have records := Records.of_left left
  obtain ⟨steady, served⟩ := ns₁.served_leave l (ns₁.lock l).resource
  obtain ⟨fewer, dropped⟩ := sound.books_leave known rfl canceling
  have freed := (counted.of_left left (ns₁.catalog_leave l _)
    (sound.alive known (by rw [canceling]; simp)) rfl).release left.sound
  have roster' := (ns₁.leave l (ns₁.lock l).resource).roster_release (ns₁.lock l).resource
  have sound' := left.sound.alike (alike_release _ (ns₁.lock l).resource)
  generalize ns₁.leave l _ = ns₂ at left records steady served fewer dropped freed roster' sound' ⊢
  generalize ns₂.release _ = ns₃ at freed roster' sound' ⊢
  have same := lock_of_roster roster'
  have claim (k : LockId) : (ns₃.lock k).claim = (ns.lock k).claim := by
    rw [same, records.claim]
    by_cases here : k = l
    · rw [here, self]
      rfl
    · rw [old k here]
  have gone : (ns₃.lock l).retired = true := by
    rw [same]
    exact (records.retired l).mpr (.inr rfl)
  have spared (k : LockId) (other : k ≠ l) : Spared ns ns₃ k := by
    have still := left.stays other
    have all := served k other
    rw [old k other] at still all
    rw [← same] at still all
    exact ⟨still.retired, still.key, all.mono roster.closed.trans⟩
  have count : ns₃.locks.size = ns.locks.size :=
    calc
      ns₃.locks.size = ns₂.locks.size := (congrArg (·.locks.size) roster' :)
      _ = ns₁.locks.size := records.size
      _ = ns.locks.size := size
  refine ⟨⟨rest.next sound' (fun k below => ?_) freed ?_ count claim,
    (roster.trans steady).trans (.of_roster roster'), count, fun k h found => ?_, claim, spared⟩, gone⟩
  · by_cases here : k = l
    · rw [here, show (ns₃.lock l).state = .canceled from
        (sound'.ledger.retired l (Nat.lt_of_lt_of_eq alive.1 count.symm)).mp gone]
      decide
    · exact (spared k here).served.ne_canceling (rest.stays k below)
  · rw [show ns₃.handles = ns₂.handles from (congrArg Namespace.handles roster' :), fewer, handles]
    exact .inr ⟨_, rfl⟩
  · rw [show ns₃.replays = ns₂.replays from (congrArg Namespace.replays roster' :), dropped] at found
    rw [← replays]
    exact get?_of_dropReplay found

/-- Its handle is out no more. -/
theorem handles_cancelLock (rest : ns.Resting) (alive : ns.Alive l) :
    (ns.cancelLock l).handles = ns.handles.remove (ns.lock l).handle := by
  have marked := rest.mark?_eq alive
  unfold Namespace.cancelLock
  rw [marked]
  dsimp only
  have sound := rest.sound.mark alive.1 marked
  have self : (ns.modifyLock l fun _ => (ns.lock l).enter .canceling).lock l =
      (ns.lock l).enter .canceling := (ns.lock_modifyLock _ l l).trans (if_pos ⟨rfl, alive.1⟩)
  have size : (ns.modifyLock l fun _ => (ns.lock l).enter .canceling).locks.size = ns.locks.size :=
    Arena.size_modify ..
  have handles : (ns.modifyLock l fun _ => (ns.lock l).enter .canceling).handles = ns.handles := rfl
  generalize ns.modifyLock l _ = ns₁ at sound self size handles ⊢
  have left := (sound.books_leave (size ▸ alive.1) rfl (by rw [self]; rfl)).1
  rw [show (ns₁.lock l).handle = (ns.lock l).handle by rw [self]; rfl, handles] at left
  have same := (ns₁.leave l (ns₁.lock l).resource).roster_release (ns₁.lock l).resource
  generalize ns₁.leave l (ns₁.lock l).resource = ns₂ at left same ⊢
  generalize ns₂.release (ns₁.lock l).resource = ns₃ at same ⊢
  exact (congrArg Namespace.handles same :).trans left

/-! ### Moving -/

/-- On the client side a new lock may be bound to the resource under another key. -/
theorem rebind (rest : ns.Resting) (alive : ns.Alive l) (new : (ns.lock l).state = .new)
    (role : ns.config.role = .client) (k : Key) :
    ∃ ns', ns.rebind (ns.lock l).handle k = (.ok (), ns') ∧ Deals ns l ns' ∧
      ∃ r, ns'.lock l = { ns.lock l with resource := r, key := k } := by
  obtain ⟨counted, named⟩ := rest.counted.findOrCreate rest.sound k
  have same := ns.alike_findOrCreate k
  have roster := ns.roster_findOrCreate k
  have inside := ns.findOrCreate_lt rest.sound.indexed k
  unfold Namespace.rebind
  rw [rest.lookup alive, role]
  dsimp only
  generalize ns.findOrCreate k = found at counted named same roster inside ⊢
  obtain ⟨target, ns₁⟩ := found
  dsimp only at counted named same roster inside ⊢
  have lock := lock_of_roster roster
  have known : l < ns₁.locks.size := Nat.lt_of_lt_of_eq alive.1 same.size.symm
  have sound := rest.sound.alike same
  have moved := (sound.move known inside).1
  have counted' := counted.move sound known
  have moves : ns₁.move l target = (.ok (), (ns.lock l).resource,
      ns₁.modifyLock l ({ · with resource := target, key := k })) := by
    unfold Namespace.move
    dsimp only
    rw [lock, new, named, if_pos rfl]
  rw [moves] at moved counted' ⊢
  dsimp only at moved counted' ⊢
  have lock' := ns₁.lock_modifyLock ({ · with resource := target, key := k }) l
  have steady : Steady ns₁ (ns₁.modifyLock l ({ · with resource := target, key := k })) :=
    ⟨rfl, rfl, rfl, rfl⟩
  have size : (ns₁.modifyLock l ({ · with resource := target, key := k })).locks.size =
    ns₁.locks.size := Arena.size_modify ..
  have handles : (ns₁.modifyLock l ({ · with resource := target, key := k })).handles =
    ns₁.handles := rfl
  have replays : (ns₁.modifyLock l ({ · with resource := target, key := k })).replays =
    ns₁.replays := rfl
  generalize ns₁.modifyLock l _ = ns₂ at moved counted' lock' steady size handles replays ⊢
  have roster' := ns₂.roster_release (ns.lock l).resource
  have sound' := moved.alike (ns₂.alike_release (ns.lock l).resource)
  have counted₃ := counted'.release moved
  generalize ns₂.release _ = ns₃ at roster' sound' counted₃ ⊢
  have self : ns₃.lock l = { ns.lock l with resource := target, key := k } := by
    rw [lock_of_roster roster', lock', if_pos ⟨rfl, known⟩, lock]
  have old (j : LockId) (other : j ≠ l) : ns₃.lock j = ns.lock j := by
    rw [lock_of_roster roster', lock', if_neg fun both => other both.1.symm, lock]
  have count : ns₃.locks.size = ns.locks.size :=
    calc
      ns₃.locks.size = ns₂.locks.size := (congrArg (·.locks.size) roster' :)
      _ = ns₁.locks.size := size
      _ = ns.locks.size := same.size
  have claim (j : LockId) : (ns₃.lock j).claim = (ns.lock j).claim := by
    by_cases here : j = l
    · rw [here, self]
    · rw [old j here]
  refine ⟨ns₃, rfl, ⟨rest.next sound' (fun j below => ?_) counted₃ ?_ count claim,
    ((Steady.of_roster roster).trans steady).trans (.of_roster roster'), count, fun q h found => ?_,
    claim, fun j other => .of_eq (old j other)⟩, target, self⟩
  · by_cases here : j = l
    · rw [here, self]
      exact rest.stays l alive.1
    · rw [old j here]
      exact rest.stays j below
  · rw [show ns₃.handles = ns₂.handles from (congrArg Namespace.handles roster' :), handles]
    exact .inl (congrArg Namespace.handles roster :)
  · rw [show ns₃.replays = ns₂.replays from (congrArg Namespace.replays roster' :), replays,
      show ns₁.replays = ns.replays from (congrArg Namespace.replays roster :)] at found
    exact found

/-! ### Coming -/

/-- A lock is made under a handle that has not been issued before. -/
theorem addLock (rest : ns.Resting) {req : LockRequest} (fresh : ns.Fresh)
    (valid : req.policy.fault? = none) : Adds ns req (ns.addLock req).2 := by
  have grown := rest.sound.addLock valid
  have counted := rest.counted.addLock rest.sound req
  have new := (ns.lock_addLock req ns.locks.size).trans (if_pos rfl)
  have old (k : LockId) (below : k < ns.locks.size) : (ns.addLock req).2.lock k = ns.lock k :=
    lock_addLock_of_lt below req
  have handles := ns.handles_addLock req
  have replays := ns.replays_addLock req
  have steady := ns.steady_addLock req
  generalize (ns.addLock req).2 = ns' at grown counted new old handles replays steady ⊢
  refine ⟨⟨grown.sound, fun k known => ?_, counted, ?_, fun j k below above same => ?_, ?_⟩,
    steady, grown.size, old, ⟨_, new⟩, fun k h found => ?_⟩
  · rcases Nat.lt_succ_iff_lt_or_eq.mp (grown.size ▸ known) with below | rfl
    · rw [old k below]
      exact rest.stays k below
    · rw [new]
      exact LockState.noConfusion
  · rw [Room, handles]
    exact HandleTable.size_insertWith_le rest.room fresh.1
  · have issued : (ns'.lock ns.locks.size).handle = ns.handles.upcoming := by
      rw [new]
      rfl
    rcases Nat.lt_succ_iff_lt_or_eq.mp (grown.size ▸ below) with before | rfl <;>
      rcases Nat.lt_succ_iff_lt_or_eq.mp (grown.size ▸ above) with before' | rfl
    · rw [old j before, old k before'] at same
      exact rest.distinct j k before before' same
    · rw [old j before, issued] at same
      exact absurd same (fresh.2 j before)
    · rw [old k before', issued] at same
      exact absurd same.symm (fresh.2 k before')
    · rfl
  · rw [handles]
    exact rest.numbered.insertWith _
  · rw [replays] at found
    split at found
    · next seq asked =>
      rw [Index.get?_insert] at found
      split at found
      · next here => exact .inr ⟨seq, asked, here⟩
      · exact .inl found
    · exact .inl found

/-! ### Operations -/

/-- A request that can be met and has not been made before makes a lock. -/
theorem register_fresh {req : LockRequest} (running : ns.stopping = false)
    (valid : req.policy.fault? = none) (owner : req.owner.name.isEmpty = false)
    (first : ns.replayOf? req = none) :
    ns.register req = .ok (.fresh ns.locks.size, (ns.addLock req).2) := by
  unfold Namespace.register ensureRunning
  simp [running, valid, owner, first, bind, Except.bind, pure, Except.pure, addLock_fst]

theorem createLock_fresh {req : LockRequest} (running : ns.stopping = false)
    (valid : req.policy.fault? = none) (owner : req.owner.name.isEmpty = false)
    (first : ns.replayOf? req = none) :
    ns.createLock req = (.ok ns.handles.upcoming, (ns.addLock req).2) := by
  unfold Namespace.createLock
  rw [register_fresh running valid owner first]
  dsimp only
  rw [Lock.handle, claim_addLock]

theorem createLock (rest : ns.Resting) {req : LockRequest} (running : ns.stopping = false)
    (fresh : ns.Fresh) (valid : req.policy.fault? = none) (owner : req.owner.name.isEmpty = false)
    (first : ns.replayOf? req = none) :
    ∃ ns', ns.createLock req = (.ok ns.handles.upcoming, ns') ∧ Adds ns req ns' :=
  ⟨_, createLock_fresh running valid owner first, rest.addLock fresh valid⟩

/-- The lock that a request makes is granted or waits. -/
theorem enqueue (rest : ns.Resting) {req : LockRequest} (running : ns.stopping = false)
    (fresh : ns.Fresh) (valid : req.policy.fault? = none) (owner : req.owner.name.isEmpty = false)
    (first : ns.replayOf? req = none) :
    ∃ ns' standing, ns.enqueue req = (.ok (ns'.reply ns.locks.size), ns') ∧
      Enrols ns req standing ns' ∧
      (standing = ⟨.granted, req.mode, some req.mode⟩ ∨ standing = ⟨.waiting, req.mode, none⟩) := by
  have adds := rest.addLock fresh valid
  have entered := register_fresh running valid owner first
  unfold Namespace.enqueue
  rw [entered]
  dsimp only
  generalize (ns.addLock req).2 = ns₁ at adds ⊢
  obtain ⟨r, new⟩ := adds.new
  obtain ⟨ns', standing, done, puts, outcome⟩ :=
    adds.resting.submit adds.alive (by rw [new]; rfl) (adds.steady.stopping.trans running)
  rw [show (ns₁.lock ns.locks.size).requestedMode = req.mode by rw [new]; rfl] at outcome
  refine ⟨ns', standing, ?_, adds.enrols puts, outcome.imp_right And.left⟩
  rw [done]

theorem enqueueLock (rest : ns.Resting) (alive : ns.Alive l) (new : (ns.lock l).state = .new)
    (running : ns.stopping = false) :
    ∃ ns' standing, ns.enqueueLock (ns.lock l).handle = (.ok (ns'.reply l), ns') ∧
      Puts ns l standing ns' ∧
      (standing = ⟨.granted, (ns.lock l).requestedMode, some (ns.lock l).requestedMode⟩ ∨
        standing = ⟨.waiting, (ns.lock l).requestedMode, none⟩ ∧
          ¬(ns.resource (ns.lock l).resource).queues.Admits l (ns.lock l).requestedMode) := by
  obtain ⟨ns', standing, done, puts, outcome⟩ := rest.submit alive new running
  refine ⟨ns', standing, ?_, puts, outcome⟩
  unfold Namespace.enqueueLock
  rw [rest.lookup alive]
  dsimp only
  rw [done]

theorem convert_eq (rest : ns.Resting) (alive : ns.Alive l) (running : ns.stopping = false)
    (mode : Mode) : ns.convert (ns.lock l).handle mode =
      match ns.changeMode l mode (ns.lock l).resource with
      | .ok (status, ns) => (.ok status, ns)
      | .error e => (.error e, ns) := by
  unfold Namespace.convert ensureRunning
  rw [rest.lookup alive, running]
  rfl

theorem convert (rest : ns.Resting) (alive : ns.Alive l) (running : ns.stopping = false)
    {held : Mode} (granted : (ns.lock l).standing = ⟨.granted, held, some held⟩) (mode : Mode) :
    held = mode ∧ ns.convert (ns.lock l).handle mode = (.ok .granted, ns) ∨
      ∃ ns', ns.convert (ns.lock l).handle mode = (.ok .granted, ns') ∧
          Puts ns l ⟨.granted, mode, some mode⟩ ns' ∨
        ns.convert (ns.lock l).handle mode = (.ok .pending, ns') ∧
          Puts ns l ⟨.converting, mode, some held⟩ ns' ∧
          ∃ e ∈ (ns.resource (ns.lock l).resource).queues.granted, e.claim.id ≠ l ∧
            e.mode.compatible mode = false := by
  rw [rest.convert_eq alive running]
  rcases rest.changeMode alive granted mode with ⟨same, done⟩ | ⟨ns', ⟨done, puts⟩ | ⟨done, puts⟩⟩
  · rw [done]
    exact .inl ⟨same, rfl⟩
  · rw [done]
    exact .inr ⟨ns', .inl ⟨rfl, puts⟩⟩
  · rw [done]
    exact .inr ⟨ns', .inr ⟨rfl, puts⟩⟩

/-- Only granted locks are converted. -/
theorem convert_refused (rest : ns.Resting) (alive : ns.Alive l) (running : ns.stopping = false)
    (other : (ns.lock l).state ≠ .granted) (mode : Mode) :
    ∃ e, ns.convert (ns.lock l).handle mode = (.error e, ns) := by
  rw [rest.convert_eq alive running, changeMode_refused other]
  exact ⟨_, rfl⟩

theorem cancel (rest : ns.Resting) (alive : ns.Alive l) :
    ns.cancel (ns.lock l).handle = (.ok .canceled, ns.cancelLock l) := by
  unfold Namespace.cancel
  rw [rest.status alive]

/-- A handle that is not live is none to cancel. -/
theorem cancel_gone (rest : ns.Resting) {h : Handle} (gone : ns.handles.get? h = none) :
    (ns.cancel h).2 = ns := by
  unfold Namespace.cancel
  split
  · next live =>
    rw [rest.numbered.status_eq_live, gone] at live
    cases live
  · rfl
  · rfl

end Resting
end Namespace
end LockManager
