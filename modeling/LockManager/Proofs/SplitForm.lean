import LockManager.Proofs.Namespace.Renumbering
import LockManager.Proofs.System.Index

set_option autoImplicit false

/-!
A request in three parts. A lock that is made under any key, bound to the resource under the right one and
then brought to the queues stands there as if it had been requested there at once.
-/

namespace LockManager
namespace Namespace

variable {ns : Namespace} {k : Key} {r : ResourceId} {req : LockRequest}

/-! ### Two references -/

theorem get?_findOrCreate (ns : Namespace) (k : Key) :
    (ns.findOrCreate k).2.index.get? k = some (ns.findOrCreate k).1 := by
  cases there : ns.index.get? k with
  | some r =>
    rw [findOrCreate_of_known there]
    exact there
  | none =>
    rw [findOrCreate_of_unknown there, Index.get?_insert, if_pos rfl]

/-- The resource is another than the one under `k`. -/
structure Other (ns : Namespace) (r : ResourceId) (k : Key) : Prop where
  known : r < ns.resources.size
  key : (ns.resource r).key ≠ k
  index : ns.index.get? k ≠ some r

namespace Other

theorem resource (other : ns.Other r k) : (ns.findOrCreate k).2.resource r = ns.resource r := by
  cases there : ns.index.get? k with
  | some q =>
    rw [findOrCreate_of_known there]
    exact Arena.get_modify_of_ne _ _ fun same => other.index (there.trans (congrArg some same))
  | none =>
    rw [findOrCreate_of_unknown there]
    exact (Arena.get_alloc ..).trans (if_neg (Nat.ne_of_lt other.known))

theorem get? (other : ns.Other r k) : (ns.findOrCreate k).2.index.get? (ns.resource r).key =
    ns.index.get? (ns.resource r).key := by
  cases there : ns.index.get? k with
  | some q => rw [findOrCreate_of_known there]; rfl
  | none => rw [findOrCreate_of_unknown there, Index.get?_insert, if_neg other.key]

theorem dropRef (other : ns.Other r k) : (ns.dropRef r).findOrCreate k =
    ((ns.findOrCreate k).1, (ns.findOrCreate k).2.dropRef r) := by
  cases there : ns.index.get? k with
  | some q =>
    have apart : r ≠ q := fun same => other.index (there.trans (congrArg some same.symm))
    have there' : (ns.dropRef r).index.get? k = some q := there
    rw [findOrCreate_of_known there, findOrCreate_of_known there']
    simp only [addRef, Namespace.dropRef, modifyResource, Arena.modify_comm _ apart]
  | none =>
    have there' : (ns.dropRef r).index.get? k = none := there
    rw [findOrCreate_of_unknown there, findOrCreate_of_unknown there']
    simp only [Namespace.dropRef, modifyResource, Arena.size_modify,
      Arena.modify_alloc_of_lt _ other.known]

theorem reclaim (other : ns.Other r k) : (ns.reclaim r).findOrCreate k =
    ((ns.findOrCreate k).1, (ns.findOrCreate k).2.reclaim r) := by
  unfold Namespace.reclaim
  dsimp only
  rw [other.resource, other.get?]
  split
  · cases there : ns.index.get? k with
    | some q =>
      have there' : (ns.index.erase (ns.resource r).key).get? k = some q := by
        rw [Index.get?_erase, if_neg other.key.symm, there]
      rw [findOrCreate_of_known there, findOrCreate_of_known there']
      rfl
    | none =>
      have there' : (ns.index.erase (ns.resource r).key).get? k = none := by
        rw [Index.get?_erase, if_neg other.key.symm, there]
      rw [findOrCreate_of_unknown there, findOrCreate_of_unknown there']
      simp only [Index.erase_insert_comm _ other.key]
  · rfl

/-- One resource may be given up before a reference to another is taken, or after that. -/
theorem release (other : ns.Other r k) : (ns.release r).findOrCreate k =
    ((ns.findOrCreate k).1, (ns.findOrCreate k).2.release r) := by
  have after : (ns.dropRef r).Other r k := by
    refine ⟨?_, ?_, other.index⟩
    · exact Nat.lt_of_lt_of_eq other.known (Arena.size_modify ..).symm
    · rw [(Counted.resource_dropRef ns r r).2]
      exact other.key
  have same := other.dropRef
  have unused : ((ns.findOrCreate k).2.dropRef r).unused r = (ns.dropRef r).unused r := by
    rw [← show _ = (ns.findOrCreate k).2.dropRef r from congrArg Prod.snd same]
    unfold Namespace.unused
    rw [after.resource]
  unfold Namespace.release
  dsimp only
  rw [unused]
  split
  · rw [after.reclaim, same]
  · exact same

end Other

/-- To take a reference under one key, then one under another and to give up the first is to take the second
alone, from where at most a resource has been made and given up. -/
theorem exists_untouched (counted : ns.Counted 0 fun _ => False) (sound : ns.Sound) (k₀ k : Key) :
    ∃ ns₀, ns.Untouched ns₀ ∧ ns₀.findOrCreate k =
      (((ns.findOrCreate k₀).2.findOrCreate k).1,
        ((ns.findOrCreate k₀).2.findOrCreate k).2.release (ns.findOrCreate k₀).1) := by
  obtain ⟨taken, name⟩ := counted.findOrCreate sound k₀
  have there := ns.get?_findOrCreate k₀
  by_cases same : k = k₀
  · -- the second reference is to the resource of the first, which stays in use
    refine ⟨ns, .same, ?_⟩
    obtain rfl := same
    rw [findOrCreate_of_known there, release_addRef taken there]
  · refine ⟨_, ns.release_findOrCreate counted k₀, Other.release ⟨?_, ?_, fun here => ?_⟩⟩
    · exact ns.findOrCreate_lt sound.indexed k₀
    · rw [name]
      exact Ne.symm same
    · exact same ((taken.keyed k _ here).symm.trans name)

/-! ### A lock that moves -/

theorem findOrCreate_enroll (ns : Namespace) (req : LockRequest) (r : ResourceId) (k : Key) :
    (ns.enroll req r).findOrCreate k =
      ((ns.findOrCreate k).1, (ns.findOrCreate k).2.enroll req r) := by
  cases there : ns.index.get? k with
  | some q =>
    have there' : (ns.enroll req r).index.get? k = some q := there
    rw [findOrCreate_of_known there, findOrCreate_of_known there']
    rfl
  | none =>
    have there' : (ns.enroll req r).index.get? k = none := there
    rw [findOrCreate_of_unknown there, findOrCreate_of_unknown there']
    rfl

theorem reclaim_enroll (ns : Namespace) (req : LockRequest) (r q : ResourceId) :
    (ns.enroll req r).reclaim q = (ns.reclaim q).enroll req r := by
  have resource : (ns.enroll req r).resource q = ns.resource q := rfl
  have index : (ns.enroll req r).index = ns.index := rfl
  unfold reclaim
  rw [resource, index]
  dsimp only
  split <;> rfl

theorem release_enroll (ns : Namespace) (req : LockRequest) (r q : ResourceId) :
    (ns.enroll req r).release q = (ns.release q).enroll req r := by
  have dropped : (ns.enroll req r).dropRef q = (ns.dropRef q).enroll req r := rfl
  have unused : ((ns.dropRef q).enroll req r).unused q = (ns.dropRef q).unused q := rfl
  unfold release
  dsimp only
  rw [dropped, unused, reclaim_enroll]
  split <;> rfl

/-- A lock that has just been made for one resource moves to another. -/
theorem move_enroll (ns : Namespace) (req : LockRequest) (r target : ResourceId) :
    (ns.enroll req r).move ns.locks.size target =
      (.ok (), r, ns.enroll { req with key := (ns.resource target).key } target) := by
  have lock : (ns.enroll req r).lock ns.locks.size =
      .create (ns.claimFor req) req.mode r req.key ns.config.historyDepth :=
    ns.locks.get_alloc_size _
  have new : ((ns.enroll req r).lock ns.locks.size).state = .new := congrArg Lock.state lock
  unfold move
  dsimp only
  rw [if_pos new, lock]
  unfold modifyLock enroll
  simp only [Arena.modify_alloc]
  rfl

/-- The handle that is issued next names the lock that is made next. -/
theorem Sound.lookup_addLock (sound : ns.Sound) (valid : req.policy.fault? = none)
    (room : (ns.addLock req).2.Room) :
    (ns.addLock req).2.lookup ns.handles.upcoming = .ok ns.locks.size := by
  have added := sound.addLock valid
  have known : ns.locks.size < (ns.addLock req).2.locks.size :=
    Nat.lt_of_lt_of_eq (Nat.lt_succ_self _) added.size.symm
  have alive := added.sound.alive known (by rw [added.new]; exact LockState.noConfusion)
  have named := added.sound.lookup_handle room alive
  rw [Lock.handle, claim_addLock] at named
  exact named

/-- Which handle names a new lock does not depend on the request. -/
theorem lookup_addLock_congr {ns' : Namespace} (handles : ns'.handles = ns.handles)
    (size : ns'.locks.size = ns.locks.size) (req req' : LockRequest) (h : Handle) :
    (ns'.addLock req').2.lookup h = (ns.addLock req).2.lookup h := by
  unfold lookup
  rw [handles_addLock, handles_addLock, handles, size]

/-- A lock that has just been made under one key and is bound to the resource under another is as one that
was made under that. -/
theorem rebind_addLock (counted : ns.Counted 0 fun _ => False) (sound : ns.Sound)
    (role : ns.config.role = .client) (k : Key)
    (found : (ns.addLock req).2.lookup ns.handles.upcoming = .ok ns.locks.size) :
    ∃ ns₀, ns.Untouched ns₀ ∧
      (ns.addLock { req with key := k }).2.rebind ns.handles.upcoming req.key =
        (.ok (), (ns₀.addLock req).2) := by
  obtain ⟨ns₀, untouched, detour⟩ := exists_untouched counted sound k req.key
  refine ⟨ns₀, untouched, ?_⟩
  have first := ns.alike_findOrCreate k
  have name := ((counted.findOrCreate sound k).1.findOrCreate (sound.alike first) req.key).2
  have second := (ns.findOrCreate k).2.alike_findOrCreate req.key
  have role' : (ns.addLock { req with key := k }).2.config.role = .client := by
    rw [(ns.steady_addLock _).config]
    exact role
  have found' : (ns.addLock { req with key := k }).2.lookup ns.handles.upcoming =
      .ok ns.locks.size := (lookup_addLock_congr rfl rfl ..).trans found
  have size : ns.locks.size = ((ns.findOrCreate k).2.findOrCreate req.key).2.locks.size :=
    (second.size.trans first.size).symm
  unfold rebind
  rw [found', role', addLock_eq, addLock_eq, detour]
  dsimp only
  rw [findOrCreate_enroll]
  dsimp only
  rw [size, move_enroll, name, release_enroll]

/-! ### The three parts -/

theorem rebind_ok {h : Handle} {ns' : Namespace} (rebound : ns.rebind h k = (.ok (), ns')) :
    ns.config.role = .client ∧ ∃ l r ns₁, ns.lookup h = .ok l ∧
      (ns.findOrCreate k).2.move l (ns.findOrCreate k).1 = (.ok (), r, ns₁) ∧
      ns' = ns₁.release r := by
  unfold rebind at rebound
  cases found : ns.lookup h with
  | error e =>
    rw [found] at rebound
    cases rebound
  | ok l =>
    rw [found] at rebound
    cases role : ns.config.role with
    | server =>
      rw [role] at rebound
      cases rebound
    | client =>
      rw [role] at rebound
      dsimp only at rebound
      obtain ⟨answer, rest⟩ := Prod.mk.inj rebound
      exact ⟨rfl, l, _, _, rfl, congrArg (Prod.mk · _) answer, rest.symm⟩

theorem enqueueLock_ok {h : Handle} {reply : Reply} {ns' : Namespace}
    (entered : ns.enqueueLock h = (.ok reply, ns')) :
    ∃ l, ns.lookup h = .ok l ∧ ns.submit l (ns.lock l).resource = .ok (reply, ns') := by
  unfold enqueueLock at entered
  cases found : ns.lookup h with
  | error e =>
    rw [found] at entered
    cases entered
  | ok l =>
    rw [found] at entered
    dsimp only at entered
    cases done : ns.submit l (ns.lock l).resource with
    | error e =>
      rw [done] at entered
      cases entered
    | ok answer =>
      rw [done] at entered
      cases entered
      exact ⟨l, rfl, done⟩

/-- Whoever is answered has made the request before, or it has made a lock that was let in. -/
theorem enqueue_ok {reply : Reply} {ns' : Namespace} (entered : ns.enqueue req = (.ok reply, ns')) :
    (∃ l, ns.register req = .ok (.replay l, ns') ∧ reply = ns'.reply l) ∨
      ∃ l ns₁, ns.register req = .ok (.fresh l, ns₁) ∧
        ns₁.submit l (ns₁.lock l).resource = .ok (reply, ns') := by
  unfold enqueue at entered
  cases registered : ns.register req with
  | error e =>
    rw [registered] at entered
    cases entered
  | ok answer =>
    obtain ⟨l | l, ns₁⟩ := answer
    · rw [registered] at entered
      dsimp only at entered
      cases done : ns₁.submit l (ns₁.lock l).resource with
      | error e =>
        rw [done] at entered
        cases entered
      | ok answer =>
        rw [done] at entered
        cases entered
        exact .inr ⟨l, ns₁, rfl, done⟩
    · rw [registered] at entered
      cases entered
      exact .inl ⟨l, rfl, rfl⟩

/-- What the three parts do and what the request does at once, each run to its end. -/
theorem Calm.split (calm : ns.Calm) (distinct : ns.index.Distinct) (role : ns.config.role = .client)
    (running : ns.stopping = false) (valid : req.policy.fault? = none)
    (owner : req.owner.name.isEmpty = false) (first : ns.replayOf? req = none)
    (room : (ns.addLock req).2.Room) (k : Key) :
    ∃ ns₁ ns₂ ns₃ ns' f reply,
      ns.createLock { req with key := k } = (.ok ns.handles.upcoming, ns₁) ∧
        ns₁.rebind ns.handles.upcoming req.key = (.ok (), ns₂) ∧
        ns₂.enqueueLock ns.handles.upcoming = (.ok reply, ns₃) ∧
        ns.enqueue req = (.ok reply, ns') ∧ Renumbers f ns' ns₃ := by
  have found := calm.sound.lookup_addLock valid room
  obtain ⟨ns₀, untouched, rebound⟩ := rebind_addLock calm.counted calm.sound role k found
  obtain ⟨f, reply, ns', ns₃, direct, last, renumbers⟩ :=
    untouched.renumbers_submit calm.sound distinct running req
  refine ⟨_, _, ns₃, ns', f, reply, Resting.createLock_fresh running valid owner first, rebound, ?_,
    enqueue_of_submit (Resting.register_fresh running valid owner first) direct, renumbers⟩
  have found₀ : (ns₀.addLock req).2.lookup ns.handles.upcoming = .ok ns.locks.size := by
    refine (lookup_addLock_congr ?_ ?_ ..).trans found <;> cases untouched <;> rfl
  unfold enqueueLock
  rw [found₀]
  dsimp only
  rw [last]

end Namespace

namespace System

variable {config : Config} {s t : System} {req : LockRequest}

/-- The operation has been carried out while nothing else has happened, and the answer was `o`. Run to its
end with nothing in between, it comes to the same. -/
structure Performs (s : System) (op : Operation) (o : Outcome) (t : System) : Prop where
  carries : s.Carries op t
  outcome : (t.task s.tasks.size).outcome = some o
  whole : s.space.perform op = (o, t.space)

/-- The operation can be carried out, and however that is done it is answered with `o` and leaves `ns`. -/
def Yields (s : System) (op : Operation) (o : Outcome) (ns : Namespace) : Prop :=
  (∃ t, s.Carries op t) ∧ ∀ t, s.Carries op t → s.Performs op o t ∧ t.space = ns

namespace Sound

variable {ns : Namespace} {h : Handle} {k : Key} {reply : Reply}

theorem yields (sound : s.Sound) (quiet : s.quiet = true) {op : Operation} {o : Outcome}
    (whole : s.space.perform op = (o, ns))
    (runs : Namespace.Runs (Task.start s.space op).2 (Task.start s.space op).1.todo ns)
    (comes : Namespace.ComesTo o (Task.start s.space op).2 (Task.start s.space op).1.todo
      (Task.start s.space op).1.outcome) : s.Yields op o ns := by
  refine ⟨sound.exists_carries quiet runs, fun t carries => ?_⟩
  have space := carries.space_of_runs sound quiet runs
  exact ⟨⟨carries, carries.outcome_of_comesTo sound comes,
    whole.trans (congrArg (Prod.mk o) space.symm)⟩, space⟩

theorem yields_create (sound : s.Sound) (quiet : s.quiet = true)
    (created : s.space.createLock req = (.ok h, ns)) :
    s.Yields (.create req) (.ok (.created h)) ns := by
  have begun : Task.start s.space (.create req) = (.answered (.ok (.created h)), ns) := by
    simp only [Task.start, created]
    rfl
  refine sound.yields quiet ?_ ?_ ?_
  · unfold Namespace.perform
    dsimp only
    rw [created]
    rfl
  · rw [begun]
    exact .done ns
  · rw [begun]
    exact .done ns

theorem yields_rebind (sound : s.Sound) (quiet : s.quiet = true)
    (rebound : s.space.rebind h k = (.ok (), ns)) : s.Yields (.rebind h k) (.ok .rebound) ns := by
  have whole : s.space.perform (.rebind h k) = (.ok .rebound, ns) := by
    unfold Namespace.perform
    dsimp only
    rw [rebound]
    rfl
  obtain ⟨role, l, r, ns₁, found, moved, rfl⟩ := Namespace.rebind_ok rebound
  refine sound.yields quiet whole ?_ ?_
  · simp only [Task.start, found, role]
    refine .next 0 (by simp [Stage.need]) trivial ?_
    simp only [Stage.carryOut, moved]
    exact Namespace.runs_releasing ..
  · simp only [Task.start, found, role]
    refine .next 0 (by simp [Stage.need]) ?_
    simp only [Stage.carryOut, moved]
    exact Namespace.comesTo_releasing ..

theorem yields_enqueueLock (sound : s.Sound) (quiet : s.quiet = true)
    (entered : s.space.enqueueLock h = (.ok reply, ns)) :
    s.Yields (.enqueueLock h) (.ok (.enqueued reply)) ns := by
  have whole : s.space.perform (.enqueueLock h) = (.ok (.enqueued reply), ns) := by
    unfold Namespace.perform
    dsimp only
    rw [entered]
    rfl
  have runs := s.space.runs_enqueueLock h
  rw [whole] at runs
  obtain ⟨l, found, done⟩ := Namespace.enqueueLock_ok entered
  refine sound.yields quiet whole runs ?_
  simp only [Task.start, found]
  exact Namespace.comesTo_submit done false

theorem yields_enqueue (sound : s.Sound) (quiet : s.quiet = true)
    (entered : s.space.enqueue req = (.ok reply, ns)) :
    s.Yields (.enqueue req) (.ok (.enqueued reply)) ns := by
  have whole : s.space.perform (.enqueue req) = (.ok (.enqueued reply), ns) := by
    unfold Namespace.perform
    dsimp only
    rw [entered]
    rfl
  have runs := s.space.runs_enqueue req
  rw [whole] at runs
  refine sound.yields quiet whole runs ?_
  rcases Namespace.enqueue_ok entered with ⟨l, copy, rfl⟩ | ⟨l, ns₁, made, done⟩
  · simp only [Task.start, copy]
    exact .done ns
  · simp only [Task.start, made]
    exact Namespace.comesTo_submit done true

end Sound

/-- On the client's side, with no other operation in progress, a request that can be met and is no copy of
an earlier one may be made in three parts: a lock is made under whatever key, bound to the resource under
the right one, and brought to the queues. The answer is that to the request made at once, and all that has
come about by then is the same too, but that the resources may have other records. -/
theorem split_form (reachable : Reachable config s) (quiet : s.quiet = true)
    (role : s.role = .client) (running : s.space.stopping = false) (valid : req.policy.fault? = none)
    (owner : req.owner.name.isEmpty = false) (first : s.space.replayOf? req = none)
    (room : (s.space.addLock req).2.Room) (k : Key) :
    let h := s.space.handles.upcoming
    let create : Operation := .create { req with key := k }
    (∃ s₁ s₂ s₃ t, s.Carries create s₁ ∧ s₁.Carries (.rebind h req.key) s₂ ∧
      s₂.Carries (.enqueueLock h) s₃ ∧ s.Carries (.enqueue req) t) ∧
    ∀ s₁ s₂ s₃ t, s.Carries create s₁ → s₁.Carries (.rebind h req.key) s₂ →
      s₂.Carries (.enqueueLock h) s₃ → s.Carries (.enqueue req) t →
        s.Performs create (.ok (.created h)) s₁ ∧
          s₁.Performs (.rebind h req.key) (.ok .rebound) s₂ ∧
          ∃ reply f, s₂.Performs (.enqueueLock h) (.ok (.enqueued reply)) s₃ ∧
            s.Performs (.enqueue req) (.ok (.enqueued reply)) t ∧
            Namespace.Renumbers f t.space s₃.space ∧
            s₃.space.lockViews = t.space.lockViews ∧
            s₃.space.resourceViews = t.space.resourceViews := by
  intro h create
  have calm := reachable.calm quiet
  obtain ⟨ns₁, ns₂, ns₃, ns', f, reply, created, rebound, entered, direct, renumbers⟩ :=
    calm.split reachable.distinct role running valid owner first room k
  have part₁ := reachable.sound.yields_create quiet created
  have part₂ (s₁ : System) (carries : s.Carries create s₁) := by
    have rebound' : s₁.space.rebind h req.key = (.ok (), ns₂) :=
      (part₁.2 s₁ carries).2 ▸ rebound
    exact (reachable.sound.reaches carries.reaches).yields_rebind carries.1 rebound'
  have part₃ (s₁ s₂ : System) (before : s.Carries create s₁)
      (carries : s₁.Carries (.rebind h req.key) s₂) := by
    have entered' : s₂.space.enqueueLock h = (.ok reply, ns₃) :=
      ((part₂ s₁ before).2 s₂ carries).2 ▸ entered
    have sound := (reachable.sound.reaches before.reaches).reaches carries.reaches
    exact sound.yields_enqueueLock carries.1 entered'
  have whole := reachable.sound.yields_enqueue quiet direct
  refine ⟨?_, fun s₁ s₂ s₃ t carries₁ carries₂ carries₃ carries => ?_⟩
  · obtain ⟨s₁, carries₁⟩ := part₁.1
    obtain ⟨s₂, carries₂⟩ := (part₂ s₁ carries₁).1
    obtain ⟨s₃, carries₃⟩ := (part₃ s₁ s₂ carries₁ carries₂).1
    obtain ⟨t, carries⟩ := whole.1
    exact ⟨s₁, s₂, s₃, t, carries₁, carries₂, carries₃, carries⟩
  · obtain ⟨performs₃, rfl⟩ := (part₃ s₁ s₂ carries₁ carries₂).2 s₃ carries₃
    obtain ⟨performs, rfl⟩ := whole.2 t carries
    have later := reachable.reaches carries.reaches
    exact ⟨(part₁.2 s₁ carries₁).1, ((part₂ s₁ carries₁).2 s₂ carries₂).1, reply, f, performs₃,
      performs, renumbers, renumbers.lockViews later.sound.space,
      renumbers.resourceViews later.sound.space later.distinct⟩

/-- B's lock is made under a key of its own and then bound to the resource that A holds, where it waits. -/
theorem split_form_waiting :
    let s := (fresh { role := .client }).follow
      (Move.through (.enqueue { key := ⟨1, 0⟩, mode := .exclusive, owner := ⟨"a"⟩ }) 0)
    let request (key : Key) : LockRequest := { key, mode := .protectedRead, owner := ⟨"b"⟩ }
    let reply : Reply := ⟨⟨1, 1⟩, .waiting, none⟩
    ∃ s₁ s₂ s₃ t f, s.Performs (.create (request ⟨2, 0⟩)) (.ok (.created ⟨1, 1⟩)) s₁ ∧
      s₁.Performs (.rebind ⟨1, 1⟩ ⟨1, 0⟩) (.ok .rebound) s₂ ∧
      s₂.Performs (.enqueueLock ⟨1, 1⟩) (.ok (.enqueued reply)) s₃ ∧
      s.Performs (.enqueue (request ⟨1, 0⟩)) (.ok (.enqueued reply)) t ∧
      Namespace.Renumbers f t.space s₃.space := by
  intro s request reply
  have reachable : Reachable { role := .client } s := reachable_follow rfl _
  have upcoming : s.space.handles.upcoming = ⟨1, 1⟩ := by decide +kernel
  have answer : (s.space.perform (.enqueue (request ⟨1, 0⟩))).1 = .ok (.enqueued reply) := by
    decide +kernel
  have first : s.space.replayOf? (request ⟨1, 0⟩) = none := by decide +kernel
  have room : (s.space.addLock (request ⟨1, 0⟩)).2.Room := by decide +kernel
  obtain ⟨⟨s₁, s₂, s₃, t, carries₁, carries₂, carries₃, carries⟩, all⟩ :=
    split_form reachable (by decide +kernel) (by decide +kernel) (by decide +kernel) rfl
      (by decide +kernel) first room ⟨2, 0⟩
  obtain ⟨created, rebound, told, f, entered, direct, renumbers, -, -⟩ :=
    all s₁ s₂ s₃ t carries₁ carries₂ carries₃ carries
  rw [upcoming] at created rebound entered
  rw [direct.whole] at answer
  cases answer
  exact ⟨s₁, s₂, s₃, t, f, created, rebound, entered, direct, renumbers⟩

end System
end LockManager
