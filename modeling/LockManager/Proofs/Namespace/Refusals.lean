import LockManager.Proofs.Alone
import LockManager.Proofs.Namespace.Operations

set_option autoImplicit false

/-!
What is refused, and that nothing is done for it. Whether an operation is refused, and why, shows before
it is begun; of what it has taken up by then it lets go again.
-/

namespace LockManager

namespace Namespace

/-- What there is to object to in an operation. -/
def refusal? (ns : Namespace) : Operation → Option LockError
  | .enqueue req | .create req =>
    if ns.stopping then some (.shuttingDown ns.config.name)
    else
      match req.policy.fault? with
      | some fault => some (.invalidRequest fault.message)
      | none => if req.owner.name.isEmpty then some (.invalidRequest "owner is required") else none
  | .enqueueLock h =>
    match ns.handles.get? h with
    | none => some (.invalidHandle h)
    | some l =>
      if (ns.lock l).state = .new then none
      else some (.protocolViolation h (ns.lock l).state .enqueue)
  | .convert h _ =>
    if ns.stopping then some (.shuttingDown ns.config.name)
    else
      match ns.handles.get? h with
      | none => some (.invalidHandle h)
      | some l =>
        if (ns.lock l).state = .granted then none
        else some (.protocolViolation h (ns.lock l).state .convert)
  | .cancel h => if ns.handles.status h = .unknown then some (.invalidHandle h) else none
  | .rebind h _ =>
    match ns.handles.get? h with
    | none => some (.invalidHandle h)
    | some l =>
      if ns.config.role = .client ∧ (ns.lock l).state = .new then none
      else some (.protocolViolation h (ns.lock l).state .rebind)
  | .glimpse .. => if ns.stopping then some (.shuttingDown ns.config.name) else none
  | .inspectAt h => if ns.handles.get? h = none then some (.invalidHandle h) else none
  | .evict _ | .shutdown | .inspect _ | .survey => none

/-- Nothing has changed, but that a resource may have been made to which nobody refers and which is not
in the index. -/
inductive Untouched (ns : Namespace) : Namespace → Prop where
  | same : ns.Untouched ns
  | spare (k : Key) (unknown : ns.index.get? k = none) :
      ns.Untouched { ns with resources := ns.resources.alloc { key := k } }

/-- The answer is an error if there was something to object to, which it tells; and then nothing has been
done. -/
def Upfront (ns : Namespace) (refusal : Option LockError) {α : Type} :
    Except LockError α × Namespace → Prop
  | (.error e, ns') => refusal = some e ∧ ns.Untouched ns'
  | (.ok _, _) => refusal = none

variable {ns : Namespace} {l : LockId}

namespace Upfront

variable {α β : Type} {refusal : Option LockError}

theorem map {answer : Except LockError α} {ns' : Namespace}
    (upfront : ns.Upfront refusal (answer, ns')) (f : α → β) :
    ns.Upfront refusal (answer.map f, ns') := by
  cases answer <;> exact upfront

variable {done : Except LockError α × Namespace} {e : LockError}

theorem error_iff (upfront : ns.Upfront refusal done) : done.1 = .error e ↔ refusal = some e := by
  obtain ⟨answer | answer, ns'⟩ := done
  · obtain ⟨rfl, -⟩ := upfront
    simp
  · obtain rfl : refusal = none := upfront
    simp

theorem untouched (upfront : ns.Upfront refusal done) (refused : done.1 = .error e) :
    ns.Untouched done.2 := by
  obtain ⟨answer, ns'⟩ := done
  obtain rfl : answer = .error e := refused
  exact upfront.2

end Upfront

/-! ### References taken and given back -/

theorem dropRef_addRef (ns : Namespace) (r : ResourceId) : (ns.addRef r).dropRef r = ns := by
  have same : (ns.resources.modify r fun res => { res with refs := res.refs + 1 }).modify r
      (fun res => { res with refs := res.refs - 1 }) = ns.resources := by
    refine congrArg Arena.mk (Array.ext (by simp [Arena.modify]) fun i _ _ => ?_)
    simp only [Arena.modify, Array.getElem_modify]
    split <;> rfl
  exact congrArg (fun resources => { ns with resources }) same

/-- Who was referred to before still is when one more reference has come and gone. -/
theorem release_addRef {claims : ResourceId → Nat} (counted : ns.Counted claims fun _ => False)
    {k : Key} {r : ResourceId} (there : ns.index.get? k = some r) : (ns.addRef r).release r = ns := by
  unfold release
  have used : ns.unused r = false := by
    refine decide_eq_false fun none => ?_
    exact counted.unused k r there none
  simp only [dropRef_addRef, used, Bool.false_eq_true, if_false]

/-- A resource made for nobody is taken out of the index again. -/
theorem release_findOrCreate (counted : ns.Counted 0 fun _ => False) (k : Key) :
    ns.Untouched ((ns.findOrCreate k).2.release (ns.findOrCreate k).1) := by
  unfold findOrCreate
  cases there : ns.index.get? k with
  | some r =>
    simp only [release_addRef counted there]
    exact .same
  | none =>
    have dropped : (ns.resources.alloc { key := k, refs := 1 }).modify ns.resources.size
        (fun res => { res with refs := res.refs - 1 }) = ns.resources.alloc { key := k } :=
      Arena.modify_alloc ..
    have new : (ns.resources.alloc { key := k }).get ns.resources.size = { key := k } :=
      Arena.get_alloc_size ..
    simp only [release, dropRef, modifyResource, dropped, unused, reclaim, resource, new,
      Queues.isEmpty, List.isEmpty_nil, decide_true, Bool.and_self, Index.get?_insert, if_true,
      Index.erase_insert there]
    exact .spare k there

/-! ### Operations -/

theorem register_error_iff {req : LockRequest} {e : LockError} :
    ns.register req = .error e ↔ ns.refusal? (.enqueue req) = some e := by
  unfold refusal? register ensureRunning
  dsimp only
  cases ns.stopping with
  | true => simp [bind, Except.bind]
  | false =>
    cases req.policy.fault? with
    | some fault => simp [bind, Except.bind, throw, throwThe, MonadExceptOf.throw]
    | none =>
      cases req.owner.name.isEmpty with
      | true => simp [bind, Except.bind, throw, throwThe, MonadExceptOf.throw]
      | false => cases ns.replayOf? req <;> simp [bind, Except.bind, pure, Except.pure]

theorem refusal?_of_refused {req : LockRequest} {e : LockError}
    (refused : ns.register req = .error e) : ns.refusal? (.enqueue req) = some e := by
  rwa [register_error_iff] at refused

theorem refusal?_of_register {req : LockRequest} {done : Registration × Namespace}
    (entered : ns.register req = .ok done) : ns.refusal? (.enqueue req) = none := by
  refine Option.eq_none_iff_forall_ne_some.mpr fun e objection => ?_
  rw [← register_error_iff, entered] at objection
  cases objection

theorem unopposed_iff {req : LockRequest} : ns.refusal? (.enqueue req) = none ↔
    ns.stopping = false ∧ req.policy.fault? = none ∧ req.owner.name.isEmpty = false := by
  unfold refusal?
  dsimp only
  cases ns.stopping <;> cases req.policy.fault? <;> cases req.owner.name.isEmpty <;> simp

/-- A lock that has just been made is let in. -/
theorem submit_addLock (running : ns.stopping = false) (req : LockRequest) :
    ∃ ns', (ns.addLock req).2.submit ns.locks.size ((ns.addLock req).2.lock ns.locks.size).resource =
      .ok (ns'.reply ns.locks.size, ns') := by
  have new : ((ns.addLock req).2.lock ns.locks.size).state = .new := by
    rw [lock_addLock, if_pos rfl]
    rfl
  exact ⟨_, submit_of_new new ((ns.steady_addLock req).stopping.trans running) _ rfl⟩

theorem enqueue_of_submit {req : LockRequest} {ns₁ ns' : Namespace} {reply : Reply}
    (entered : ns.register req = .ok (.fresh l, ns₁))
    (done : ns₁.submit l (ns₁.lock l).resource = .ok (reply, ns')) :
    ns.enqueue req = (.ok reply, ns') := by
  unfold enqueue
  simp only [entered, done]

/-- A request that is let in is met. -/
theorem upfront_enqueue (ns : Namespace) (req : LockRequest) :
    ns.Upfront (ns.refusal? (.enqueue req)) (ns.enqueue req) := by
  rcases ns.register_cases req with ⟨e, refused⟩ | ⟨l, -, answered⟩ | ⟨-, entered⟩
  · unfold enqueue
    rw [refused]
    exact ⟨refusal?_of_refused refused, .same⟩
  · unfold enqueue
    rw [answered]
    exact refusal?_of_register answered
  · have unopposed := refusal?_of_register entered
    obtain ⟨ns', done⟩ := submit_addLock (unopposed_iff.mp unopposed).1 req
    rw [enqueue_of_submit entered done]
    exact unopposed

theorem upfront_createLock (ns : Namespace) (req : LockRequest) :
    ns.Upfront (ns.refusal? (.create req)) (ns.createLock req) := by
  unfold createLock
  cases entered : ns.register req with
  | error e => exact ⟨refusal?_of_refused entered, .same⟩
  | ok done =>
    obtain ⟨l | l, ns'⟩ := done <;> exact refusal?_of_register entered

theorem upfront_cancel (ns : Namespace) (h : Handle) :
    ns.Upfront (ns.refusal? (.cancel h)) (ns.cancel h) := by
  unfold refusal? cancel
  dsimp only
  cases ns.handles.status h with
  | live l => exact rfl
  | retired => exact rfl
  | unknown => exact ⟨rfl, .same⟩

theorem upfront_glimpse (ns : Namespace) (k : Key) (requester : Owner) :
    ns.Upfront (ns.refusal? (.glimpse k requester)) (ns.glimpse k requester) := by
  unfold refusal? glimpse ensureRunning
  dsimp only
  cases ns.stopping with
  | true => exact ⟨rfl, .same⟩
  | false => cases ns.find? k <;> exact rfl

/-- Only a new lock may be brought to the queues. -/
theorem submit_refused (running : ns.stopping = false) (old : (ns.lock l).state ≠ .new)
    (stays : (ns.lock l).state.leaving = false) {r : ResourceId} :
    ns.submit l r = .error (.protocolViolation (ns.lock l).handle (ns.lock l).state .enqueue) := by
  have edge : (ns.lock l).advance? .enqueued = none :=
    Lock.advance?_of_not_allows (mt LockState.allows_enqueued_iff.mp old)
  unfold submit ensureRunning
  simp [running, stays, edge, bind, Except.bind, throw, throwThe, MonadExceptOf.throw]

namespace Calm

/-- A lock is brought to the queues if it is new. -/
theorem upfront_enqueueLock (calm : ns.Calm) (h : Handle) :
    ns.Upfront (ns.refusal? (.enqueueLock h)) (ns.enqueueLock h) := by
  unfold refusal? Namespace.enqueueLock lookup
  dsimp only
  cases found : ns.handles.get? h with
  | none => exact ⟨rfl, .same⟩
  | some l =>
    obtain ⟨alive, running⟩ := calm.named (h := h) (by rw [lookup, found])
    have bears := (calm.names h l found).2
    dsimp only
    by_cases new : (ns.lock l).state = .new
    · rw [submit_of_new new running _ rfl, if_pos new]
      exact rfl
    · rw [submit_refused running new (calm.settled alive).stays, if_neg new, bears]
      exact ⟨rfl, .same⟩

/-- A mode is changed if the lock has one. -/
theorem changeMode_of_granted (calm : ns.Calm) (alive : ns.Alive l)
    (granted : (ns.lock l).state = .granted) (mode : Mode) :
    ∃ done, ns.changeMode l mode (ns.lock l).resource = .ok done := by
  have named : (ns.lock l).claim.id = l := calm.sound.ledger.coherent.named l alive.1
  have standing : (ns.lock l).standing =
      ⟨.granted, (ns.lock l).requestedMode, some (ns.lock l).requestedMode⟩ :=
    congrArg₂ (Standing.mk · _ ·) granted ((calm.settled alive).holds granted)
  by_cases same : (ns.lock l).requestedMode = mode
  · exact ⟨_, Resting.changeMode_same (same ▸ standing) _⟩
  · rw [Resting.changeMode_other standing same]
    split
    · exact ⟨_, rfl⟩
    · obtain ⟨a, entered⟩ := Arbiter.exists_enter (a := ns.asking l mode (ns.lock l).resource)
        (l := (ns.lock l).claim.id) mode false (by rw [named, lock_asking alive.1]; rfl)
      have converted : (ns.asking l mode (ns.lock l).resource).convert? (ns.lock l).claim mode false =
          some _ := congrArg (Option.map _) entered
      rw [converted]
      exact ⟨_, rfl⟩

theorem upfront_convert (calm : ns.Calm) (h : Handle) (mode : Mode) :
    ns.Upfront (ns.refusal? (.convert h mode)) (ns.convert h mode) := by
  unfold refusal? Namespace.convert lookup ensureRunning
  dsimp only
  cases ns.stopping with
  | true => exact ⟨rfl, .same⟩
  | false =>
    cases found : ns.handles.get? h with
    | none => exact ⟨rfl, .same⟩
    | some l =>
      obtain ⟨alive, -⟩ := calm.named (h := h) (by rw [lookup, found])
      have bears := (calm.names h l found).2
      simp only [Bool.false_eq_true, if_false]
      by_cases granted : (ns.lock l).state = .granted
      · obtain ⟨done, changed⟩ := calm.changeMode_of_granted alive granted mode
        rw [changed, if_pos granted]
        exact rfl
      · rw [changeMode_refused granted, if_neg granted, bears]
        exact ⟨rfl, .same⟩

theorem upfront_rebind (calm : ns.Calm) (h : Handle) (k : Key) :
    ns.Upfront (ns.refusal? (.rebind h k)) (ns.rebind h k) := by
  unfold refusal? Namespace.rebind lookup
  dsimp only
  cases found : ns.handles.get? h with
  | none => exact ⟨rfl, .same⟩
  | some l =>
    have bears := (calm.names h l found).2
    dsimp only
    cases role : ns.config.role with
    | server => exact ⟨rfl, .same⟩
    | client =>
      have lock : (ns.findOrCreate k).2.lock l = ns.lock l :=
        lock_of_roster (ns.roster_findOrCreate k) l
      unfold move
      dsimp only
      rw [lock]
      by_cases new : (ns.lock l).state = .new
      · simp only [new, if_true]
        exact rfl
      · simp only [new, if_false]
        rw [bears]
        exact ⟨rfl, release_findOrCreate calm.counted k⟩

/-- With no other in progress, an operation is refused for what there was to object to before, and for
nothing else, and then nothing has been done. -/
theorem upfront_perform (calm : ns.Calm) (op : Operation) :
    ns.Upfront (ns.refusal? op) (ns.perform op) := by
  cases op with
  | enqueue req => exact (ns.upfront_enqueue req).map _
  | create req => exact (ns.upfront_createLock req).map _
  | enqueueLock h => exact (calm.upfront_enqueueLock h).map _
  | convert h mode => exact (calm.upfront_convert h mode).map _
  | cancel h => exact (ns.upfront_cancel h).map _
  | rebind h k => exact (calm.upfront_rebind h k).map _
  | glimpse k requester => exact (ns.upfront_glimpse k requester).map _
  | inspectAt h =>
    unfold perform refusal? lookup
    dsimp only
    cases ns.handles.get? h with
    | none => exact ⟨rfl, .same⟩
    | some l => exact rfl
  | evict _ | shutdown | inspect _ | survey => exact rfl

end Calm
end Namespace
end LockManager
