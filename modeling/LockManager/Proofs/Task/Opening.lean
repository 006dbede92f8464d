import LockManager.Proofs.Task

set_option autoImplicit false

/-!
The ways in which an operation can begin. Most have looked something up and changed nothing; the
others have made a lock, taken a reference to a resource, or silenced the locks that are to go.
-/

namespace LockManager

/-- The stage works on a lock or looks at resources. -/
def Stage.Plain : Stage → Prop
  | .submit .. | .changeMode .. | .mark .. | .look .. | .lookAround _ | .hold .. => True
  | _ => False

/-- What is left to do, and what has been done, when an operation has begun. -/
inductive Opening (ns : Namespace) : List Stage → Namespace → Prop where
  | still {todo : List Stage} (plain : ∀ stage ∈ todo, stage.Plain) : Opening ns todo ns
  | register {req : LockRequest} {todo : List Stage} (running : ns.stopping = false)
      (valid : req.policy.fault? = none) (new : ns.replayOf? req = none)
      (plain : ∀ stage ∈ todo, stage.Plain) : Opening ns todo (ns.addLock req).2
  | rebind {l : LockId} {k : Key} (known : l ∈ ns.live) (client : ns.config.role = .client) :
      Opening ns [.move l (ns.findOrCreate k).1] (ns.findOrCreate k).2
  | glimpse {k : Key} {r : ResourceId} (there : ns.index.get? k = some r) (requester : Owner) :
      Opening ns [.ask r requester] (ns.addRef r)
  | evict (owner : Owner) :
      Opening ns ((ns.ownedBy owner).map (.mark · true) ++ [.forget owner])
        (ns.silence (ns.ownedBy owner))
  | shutdown (running : ns.stopping = false) :
      Opening ns (ns.live.map (.mark · true) ++ [.close]) ns.beginShutdown

namespace Namespace

variable {ns : Namespace}

theorem mem_live_of_lookup {h : Handle} {l : LockId} (found : ns.lookup h = .ok l) :
    l ∈ ns.live := by
  unfold lookup at found
  split at found
  · next there =>
    cases found
    exact HandleTable.mem_entries_of_get? there
  · cases found

/-- Whoever is let in is a copy of an earlier request, or new. -/
theorem register_ok {req : LockRequest} {registration : Registration} {ns' : Namespace}
    (done : ns.register req = .ok (registration, ns')) :
    (∃ l, registration = .replay l ∧ ns' = ns) ∨
      registration = .fresh ns.locks.size ∧ ns' = (ns.addLock req).2 ∧ ns.stopping = false ∧
        req.policy.fault? = none ∧ ns.replayOf? req = none := by
  have running : ns.stopping = false := by
    apply Bool.eq_false_iff.mpr
    intro stopping
    simp [register, ensureRunning, stopping, bind, Except.bind] at done
  rcases ns.register_cases req with ⟨e, refused⟩ | ⟨l, -, copy⟩ | ⟨valid, fresh⟩
  · rw [refused] at done
    cases done
  · rw [copy] at done
    cases done
    exact .inl ⟨l, rfl, rfl⟩
  · have new : ns.replayOf? req = none := by
      cases found : ns.replayOf? req with
      | none => rfl
      | some l =>
        unfold register at fresh
        simp only [ensureRunning, running, valid, found, bind, Except.bind, pure, Except.pure,
          Bool.false_eq_true, if_false] at fresh
        split at fresh
        · cases fresh
        · simp at fresh
    rw [fresh] at done
    cases done
    exact .inr ⟨rfl, rfl, running, valid, new⟩

end Namespace

namespace Task

variable (ns : Namespace)

theorem opening_answered (outcome : Outcome) : Opening ns (answered outcome).todo ns :=
  .still (by simp [answered])

theorem opening_enqueue (req : LockRequest) :
    Opening ns (start ns (.enqueue req)).1.todo (start ns (.enqueue req)).2 := by
  unfold start
  cases done : ns.register req with
  | error e =>
    simp only [done]
    exact opening_answered ns _
  | ok result =>
    obtain ⟨registration, ns'⟩ := result
    simp only [done]
    rcases Namespace.register_ok done with ⟨l, rfl, rfl⟩ | ⟨rfl, rfl, running, valid, new⟩
    · exact opening_answered ns' _
    · exact .register running valid new (by simp [Stage.Plain])

theorem opening_create (req : LockRequest) :
    Opening ns (start ns (.create req)).1.todo (start ns (.create req)).2 := by
  unfold start Namespace.createLock
  cases done : ns.register req with
  | error e =>
    simp only [done]
    exact opening_answered ns _
  | ok result =>
    obtain ⟨registration, ns'⟩ := result
    simp only [done]
    rcases Namespace.register_ok done with ⟨l, rfl, rfl⟩ | ⟨rfl, rfl, running, valid, new⟩
    · exact opening_answered ns' _
    · exact .register running valid new (by simp [answered])

theorem opening_rebind (h : Handle) (k : Key) :
    Opening ns (start ns (.rebind h k)).1.todo (start ns (.rebind h k)).2 := by
  unfold start
  cases found : ns.lookup h with
  | error e =>
    simp only [found]
    exact opening_answered ns _
  | ok l =>
    simp only [found]
    cases role : ns.config.role with
    | server => exact opening_answered ns _
    | client => exact .rebind (Namespace.mem_live_of_lookup found) role

theorem opening_glimpse (k : Key) (requester : Owner) :
    Opening ns (start ns (.glimpse k requester)).1.todo (start ns (.glimpse k requester)).2 := by
  unfold start
  cases ns.ensureRunning with
  | error e => exact opening_answered ns _
  | ok _ =>
    dsimp only
    cases there : ns.index.get? k with
    | none =>
      simp only [Namespace.find?, there, Option.map_none]
      exact opening_answered ns _
    | some r =>
      simp only [Namespace.find?, there, Option.map_some]
      exact .glimpse there requester

theorem opening_start (op : Operation) :
    Opening ns (start ns op).1.todo (start ns op).2 := by
  cases op with
  | enqueue req => exact opening_enqueue ns req
  | create req => exact opening_create ns req
  | rebind h k => exact opening_rebind ns h k
  | glimpse k requester => exact opening_glimpse ns k requester
  | evict owner => exact .evict owner
  | shutdown =>
    unfold start
    dsimp only
    split
    · exact opening_answered ns _
    · next running => exact .shutdown (Bool.eq_false_iff.mpr running)
  | enqueueLock h =>
    unfold start
    cases found : ns.lookup h <;> simp only [found] <;>
      exact .still (by simp [answered, Stage.Plain])
  | convert h mode =>
    unfold start
    cases ns.ensureRunning <;> cases found : ns.lookup h <;> simp only [found] <;>
      exact .still (by simp [answered, Stage.Plain])
  | cancel h =>
    unfold start
    cases found : ns.handles.status h <;> simp only [found] <;>
      exact .still (by simp [answered, Stage.Plain])
  | inspect k =>
    unfold start
    dsimp only
    cases ns.index.get? k <;> exact .still (by simp [answered, Stage.Plain])
  | survey =>
    unfold start
    dsimp only
    cases ns.indexed <;> exact .still (by simp [answered, Stage.Plain])
  | inspectAt h =>
    unfold start
    cases found : ns.lookup h <;> simp only [found] <;>
      exact .still (by simp [answered, Stage.Plain])

end Task
end LockManager
