import LockManager.Namespace.Operations
import LockManager.Proofs.Arbiter.Reprocess

set_option autoImplicit false

/-!
The ledger of a namespace. Handing over messages, counting references and reporting holders leave it
alone, and what has been decided on a resource is taken over as it is.
-/

namespace LockManager
namespace Namespace

/-- Nothing is in a namespace that has just been created. -/
theorem create_eq_ok {config : Config} {ns : Namespace} :
    create config = .ok ns ↔ config.fault? = none ∧ ns = { config } := by
  unfold create
  cases config.fault? with
  | some fault => simp
  | none => simp [eq_comm]

def ledger (ns : Namespace) : Ledger :=
  { config := ns.config
    size := ns.locks.size
    lock := fun l => (ns.lock l).outline
    queues := fun r => (ns.resource r).queues }

/-- The ledger has become `b` and no handle has been issued or given back. There may be more
resources, and whatever is in the index is one. -/
structure Becomes (ns : Namespace) (b : Ledger) (ns' : Namespace) : Prop where
  ledger : ns'.ledger = b
  handles : ns'.handles = ns.handles
  grown : ns.resources.size ≤ ns'.resources.size
  indexed : ∀ k r, ns'.index.get? k = some r → ns.index.get? k = some r ∨ r < ns'.resources.size

/-- Nothing has changed in the ledger. -/
abbrev Alike (ns ns' : Namespace) : Prop := Becomes ns ns.ledger ns'

theorem Alike.refl (ns : Namespace) : Alike ns ns :=
  ⟨rfl, rfl, Nat.le_refl _, fun _ _ => .inl⟩

theorem Becomes.trans {ns ns' ns'' : Namespace} {b b' : Ledger} (first : Becomes ns b ns')
    (second : Becomes ns' b' ns'') : Becomes ns b' ns'' := by
  refine ⟨second.ledger, second.handles.trans first.handles,
    Nat.le_trans first.grown second.grown, ?_⟩
  intro k r found
  rcases second.indexed k r found with old | below
  · rcases first.indexed k r old with older | before
    · exact .inl older
    · exact .inr (Nat.lt_of_lt_of_le before second.grown)
  · exact .inr below

theorem Becomes.alike {ns ns' ns'' : Namespace} {b : Ledger} (first : Becomes ns b ns')
    (second : Alike ns' ns'') : Becomes ns b ns'' :=
  first.ledger ▸ first.trans second

theorem Alike.foldl {β : Type} {f : Namespace → β → Namespace} (keeps : ∀ ns x, Alike ns (f ns x))
    (xs : List β) (ns : Namespace) : Alike ns (xs.foldl f ns) := by
  induction xs generalizing ns with
  | nil => exact .refl ns
  | cons x xs ih => exact (keeps ns x).alike (ih _)

variable (ns : Namespace)

/-! ### Changes of one record -/

theorem becomes_modifyLock {l : LockId} (known : l < ns.locks.size) (f : Lock → Lock) :
    Becomes ns (ns.ledger.set l (f (ns.lock l)).outline) (ns.modifyLock l f) := by
  refine ⟨?_, rfl, Nat.le_refl _, fun _ _ => .inl⟩
  simp only [ledger, Ledger.set, Ledger.mk.injEq]
  refine ⟨rfl, Arena.size_modify .., ?_, rfl⟩
  funext k
  by_cases same : k = l
  · rw [same, Function.update_self]
    exact congrArg Lock.outline (Arena.get_modify_self _ f known)
  · rw [Function.update_of_ne same]
    exact congrArg Lock.outline (Arena.get_modify_of_ne _ f (Ne.symm same))

theorem alike_modifyLock (l : LockId) {f : Lock → Lock} (same : ∀ x, (f x).outline = x.outline) :
    Alike ns (ns.modifyLock l f) := by
  have locks : ∀ k, ((ns.modifyLock l f).lock k).outline = (ns.lock k).outline := by
    intro k
    unfold lock modifyLock
    rw [Arena.get_modify]
    split
    · exact same _
    · rfl
  refine ⟨?_, rfl, Nat.le_refl _, fun _ _ => .inl⟩
  simp only [ledger, locks]
  simp only [modifyLock, Arena.size_modify]
  rfl

theorem alike_modifyResource (r : ResourceId) {f : Resource → Resource}
    (same : ∀ x, (f x).queues = x.queues) : Alike ns (ns.modifyResource r f) := by
  have queues : ∀ q, ((ns.modifyResource r f).resource q).queues = (ns.resource q).queues := by
    intro q
    unfold resource modifyResource
    rw [Arena.get_modify]
    split
    · exact same _
    · rfl
  have size : (ns.modifyResource r f).resources.size = ns.resources.size := Arena.size_modify ..
  refine ⟨?_, rfl, Nat.le_of_eq size.symm, fun _ _ => .inl⟩
  simp only [ledger, queues]
  rfl

theorem alike_modifyDispatcher (f : Dispatcher → Dispatcher) : Alike ns (ns.modifyDispatcher f) :=
  ⟨rfl, rfl, Nat.le_refl _, fun _ _ => .inl⟩

/-! ### Messages -/

theorem alike_schedule (l : LockId) : Alike ns (ns.schedule l) := by
  unfold schedule
  dsimp only
  split
  · exact .refl ns
  · split
    · exact ns.alike_modifyLock l fun _ => rfl
    · refine Becomes.alike ?_ (alike_modifyDispatcher _ _)
      exact ns.alike_modifyLock l fun _ => rfl

theorem alike_dispatch (touched : List LockId) : Alike ns (ns.dispatch touched) :=
  Alike.foldl alike_schedule touched ns

theorem alike_drain (l : LockId) : Alike ns (ns.drain l) := by
  unfold drain
  dsimp only
  split
  · refine Becomes.alike ?_ (alike_modifyDispatcher _ _)
    exact ns.alike_modifyLock l fun _ => rfl
  · refine Becomes.alike ?_ (alike_modifyDispatcher _ _)
    exact ns.alike_modifyLock l fun _ => rfl

/-- A worker takes up a lock only when it is free and there is one in the queue. -/
theorem takeUp?_eq {ns ns' : Namespace} (taken : ns.takeUp? = some ns') :
    ns.dispatcher.deliveries.length < ns.config.workers ∧ ∃ l rest,
      ns.dispatcher.queue = l :: rest ∧
        ns' = (ns.modifyDispatcher ({ · with queue := rest })).drain l := by
  unfold takeUp? at taken
  split at taken
  · next room =>
    split at taken
    · next l rest queue =>
      cases taken
      exact ⟨room, l, rest, queue, rfl⟩
    · cases taken
  · cases taken

theorem alike_takeUp {ns ns' : Namespace} (taken : ns.takeUp? = some ns') : Alike ns ns' := by
  obtain ⟨-, l, rest, -, rfl⟩ := takeUp?_eq taken
  exact (ns.alike_modifyDispatcher _).alike (alike_drain _ l)

theorem alike_finish (d : Delivery) : Alike ns (ns.finish d) :=
  (ns.alike_modifyDispatcher _).alike (alike_drain _ d.lock)

theorem alike_abandon (l : LockId) : Alike ns (ns.abandon l) := by
  refine Becomes.alike ?_ (alike_modifyDispatcher _ _)
  exact ns.alike_modifyLock l fun _ => rfl

theorem alike_closeDispatcher : Alike ns ns.closeDispatcher :=
  (Alike.foldl alike_abandon ns.dispatcher.queue ns).alike (alike_modifyDispatcher _ _)

theorem alike_silence (ls : List LockId) : Alike ns (ns.silence ls) := by
  refine Alike.foldl (fun ns l => ?_) ls ns
  exact ns.alike_modifyLock l fun _ => rfl

theorem alike_beginShutdown : Alike ns ns.beginShutdown :=
  (ns.alike_silence ns.live).alike ⟨rfl, rfl, Nat.le_refl _, fun _ _ => .inl⟩

/-- A look at the holders changes nothing except that it notes in locks that their owners have been
reported. -/
theorem checkTimeouts_induction {P : Namespace → Prop} (start : P ns)
    (noted : ∀ ns' l, P ns' → P (ns'.modifyLock l ({ · with timeoutReported := true }))) :
    P ns.checkTimeouts.2 := by
  refine List.foldlRecOn (motive := fun p : List (Owner × Grievance) × Namespace => P p.2) ns.live _ start fun p before l _ => ?_
  dsimp only
  split
  · exact noted p.2 l before
  · exact before

theorem alike_checkTimeouts : Alike ns ns.checkTimeouts.2 :=
  ns.checkTimeouts_induction (P := Alike ns) (.refl ns) fun ns' l alike =>
    alike.alike (ns'.alike_modifyLock l fun _ => rfl)

theorem alike_pass (duration : Nat) : Alike ns { ns with clock := ns.clock + duration } :=
  ⟨rfl, rfl, Nat.le_refl _, fun _ _ => .inl⟩

/-! ### References and replays -/

theorem alike_addRef (r : ResourceId) : Alike ns (ns.addRef r) :=
  ns.alike_modifyResource r fun _ => rfl

theorem alike_dropRef (r : ResourceId) : Alike ns (ns.dropRef r) :=
  ns.alike_modifyResource r fun _ => rfl

theorem alike_reclaim (r : ResourceId) : Alike ns (ns.reclaim r) := by
  unfold reclaim
  dsimp only
  split
  · refine ⟨rfl, rfl, Nat.le_refl _, fun k q found => .inl ?_⟩
    rw [Index.get?_erase] at found
    split at found
    · cases found
    · exact found
  · exact .refl ns

/-- A resource that has just been made has empty queues, like one that does not exist. -/
theorem alike_findOrCreate (k : Key) : Alike ns (ns.findOrCreate k).2 := by
  unfold findOrCreate
  split
  · exact ns.alike_addRef _
  · have queues : ∀ q, ((ns.resources.alloc { key := k, refs := 1 }).get q).queues =
        (ns.resources.get q).queues := by
      intro q
      rw [Arena.get_alloc]
      split
      · next last =>
        rw [last, Arena.get, Array.getD_eq_getD_getElem?, Arena.size, Array.getElem?_size]
        rfl
      · rfl
    refine ⟨?_, rfl, ?_, ?_⟩
    · simp only [ledger, resource, queues]
      rfl
    · simp
    · intro k' q found
      rw [Index.get?_insert] at found
      split at found
      · cases found
        exact .inr (by simp)
      · exact .inl found

theorem findOrCreate_lt (placed : ∀ k r, ns.index.get? k = some r → r < ns.resources.size)
    (k : Key) :
    (ns.findOrCreate k).1 < (ns.findOrCreate k).2.resources.size := by
  unfold findOrCreate
  split
  · next r found => simpa [addRef, modifyResource] using placed k r found
  · simp

theorem alike_dropReplay (claim : Claim) : Alike ns (ns.dropReplay claim) := by
  unfold dropReplay
  split
  · split
    · exact ⟨rfl, rfl, Nat.le_refl _, fun _ _ => .inl⟩
    · exact .refl ns
  · exact .refl ns

theorem alike_forget (owner : Owner) : Alike ns (ns.forget owner) :=
  ⟨rfl, rfl, Nat.le_refl _, fun _ _ => .inl⟩

/-! ### Decisions -/

theorem ledger_arbiter (r : ResourceId) : (ns.arbiter r).ledger r ns.ledger.queues = ns.ledger := by
  simp only [Arbiter.ledger, arbiter]
  rw [show (ns.resource r).queues = ns.ledger.queues r from rfl, Function.update_eq_self]
  rfl

theorem ledger_arbiter_modifyLock (r : ResourceId) {l : LockId} (known : l < ns.locks.size)
    (f : Lock → Lock) : ((ns.arbiter r).modifyLock l f).ledger r ns.ledger.queues =
      ns.ledger.set l (f (ns.lock l)).outline := by
  rw [Arbiter.ledger_modifyLock (a := ns.arbiter r) _ known, ledger_arbiter]
  rfl

theorem becomes_conclude {r : ResourceId} (held : r < ns.resources.size) {a : Arbiter} {b : Ledger}
    (config : b.config = ns.config) (decided : a.ledger r ns.ledger.queues = b) :
    Becomes ns b (ns.conclude r a) := by
  have taken : Becomes ns b
      { ns with
        locks := a.locks
        resources := ns.resources.modify r ({ · with queues := a.queues }) } := by
    refine ⟨?_, rfl, Nat.le_of_eq (Arena.size_modify ..).symm, fun _ _ => .inl⟩
    rw [← decided] at config ⊢
    simp only [ledger, Arbiter.ledger, Ledger.mk.injEq, true_and]
    refine ⟨config.symm, rfl, ?_⟩
    funext q
    by_cases same : q = r
    · rw [same, Function.update_self]
      exact congrArg Resource.queues (Arena.get_modify_self _ _ held)
    · rw [Function.update_of_ne same]
      exact congrArg Resource.queues (Arena.get_modify_of_ne _ _ (Ne.symm same))
  exact taken.alike (alike_dispatch _ a.touched)

end Namespace
end LockManager
