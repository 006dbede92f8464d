import LockManager.Proofs.Alone
import LockManager.Proofs.Namespace.Sweep

set_option autoImplicit false

/-!
Evicting an owner. Its locks are canceled one after another, and each time the resource is looked at
again; so as long as nobody can be granted anything in between, it is as if they had all gone at once.
-/

namespace LockManager
namespace Namespace

variable {ns : Namespace} {l : LockId} {owner : Owner} {ls : List LockId}

theorem Names.live_nodup (names : ns.Names) (room : ns.handles.slots.size ≤ UInt32.size) :
    ns.live.Nodup := by
  refine List.pairwise_filterMap.mpr (List.pairwise_iff_getElem.mpr fun i j small large before => ?_)
  rintro k there _ there' rfl
  have found (n : Nat) (inside : n < ns.handles.slots.toList.length)
      (entry : (ns.handles.slots.toList[n]).entry = some k) :
      (ns.lock k).handle.index.toNat = n := by
    rw [Array.length_toList] at inside
    rw [Array.getElem_toList] at entry
    have small : n < UInt32.size := Nat.lt_of_lt_of_le inside room
    have index : (UInt32.ofNat n).toNat = n := UInt32.toNat_ofNat_of_lt' small
    have named := names ⟨UInt32.ofNat n, ns.handles.slots[n].generation⟩ k
      (HandleTable.get?_eq_some.mpr (by
        rw [index, Array.getElem?_eq_getElem inside, ← entry]))
    rw [named.2, index]
  have same := (found i small there).symm.trans (found j large there')
  omega

/-- Live locks can be canceled, also after some have been silenced. -/
theorem Calm.ready {ns' : Namespace} (calm : ns.Calm) (room : ns.handles.slots.size ≤ UInt32.size)
    (same : Alike ns ns') (live : ls.Sublist ns.live) : ns'.Ready ls := by
  have alive (l : LockId) (inside : l ∈ ls) : ns.Alive l :=
    (calm.sound.mem_live_iff room).mp (live.subset inside)
  refine ⟨calm.sound.alike same, (calm.names.live_nodup room).sublist live, fun l inside => ?_,
    fun l inside => ?_⟩
  · obtain ⟨known, stays⟩ := alive l inside
    exact ⟨same.size.symm ▸ known, (congrArg Lock.retired (same.outline l) :).trans stays⟩
  · intro canceling
    exact calm.stays l (alive l inside).1
      ((congrArg Lock.state (same.outline l) :).symm.trans canceling)

theorem Calm.ready_evict (calm : ns.Calm) (room : ns.handles.slots.size ≤ UInt32.size)
    (owner : Owner) : (ns.silence (ns.ownedBy owner)).Ready (ns.ownedBy owner) :=
  calm.ready room (ns.alike_silence _) List.filter_sublist

theorem runs_marks (ready : ns.Ready ls) :
    Runs ns (ls.map (.mark · true)) (ls.foldl cancelLock ns) := by
  induction ls generalizing ns with
  | nil => exact .done ns
  | cons l ls ih =>
    have first : ns.mark? l ≠ none := by simp [mark?_of_allows ready.edge]
    exact (runs_mark fun _ => first).append (ih ready.next.1)

theorem Calm.runs_evict (calm : ns.Calm) (room : ns.handles.slots.size ≤ UInt32.size)
    (owner : Owner) : Runs (Task.start ns (.evict owner)).2 (Task.start ns (.evict owner)).1.todo
      (ns.evictOwner owner).2 := by
  have last (ns' : Namespace) : Runs ns' [.forget owner] (ns'.forget owner) :=
    .next 0 (by simp [Stage.need]) trivial (.done _)
  exact (runs_marks (calm.ready_evict room owner)).append (last _)

/-! ### On the way -/

section

variable {Q : Namespace → Prop} {rest : List Stage}

theorem throughout_releasing {r : ResourceId} (now : Q (ns.dropRef r))
    (later : Throughout Q (ns.release r) rest) :
    Throughout Q (Progress.releasing ns r none).space
      ((Progress.releasing ns r none).next ++ rest) := by
  unfold Progress.releasing
  unfold release at later
  dsimp only at later ⊢
  split at later
  · next unused =>
    rw [if_pos unused]
    exact .next 0 (by simp [Stage.need]) now later
  · next used =>
    rw [if_neg used]
    exact later

/-- A cancel of one lock is recorded, then the lock leaves. In between nothing happens to the others. -/
theorem throughout_mark (closed : ∀ ns ns' : Namespace,
      (∀ k, ns'.lock k = ns.lock k ∨ (ns'.lock k).state.leaving = true) → Q ns → Q ns')
    (known : l < ns.locks.size) (edge : (ns.lock l).state.allows .canceling = true) (now : Q ns)
    (later : Throughout Q (ns.cancelLock l) rest) : Throughout Q ns (.mark l true :: rest) := by
  have bound : ((ns.marked l).lock l).resource = (ns.lock l).resource := by
    rw [lock_marked_self known]
    rfl
  have marked : Q (ns.marked l) := by
    refine closed ns _ (fun k => ?_) now
    by_cases same : k = l
    · rw [same, lock_marked_self known]
      exact .inr rfl
    · exact .inl (ns.lock_marked_of_ne same)
  rw [cancelLock_eq known edge] at later
  refine .next 0 (by simp [Stage.need]) now ?_
  simp only [Stage.carryOut, mark?_of_allows edge]
  refine .next (ns.lock l).resource (fun k side what => ?_) marked ?_
  · cases what
    exact bound
  · simp only [Stage.carryOut]
    generalize (ns.marked l).leave l (ns.lock l).resource = out at later ⊢
    have dropped : Q (out.dropRef (ns.lock l).resource) := by
      refine closed _ _ (fun k => ?_) later.now
      exact .inl (lock_of_roster (out.roster_release (ns.lock l).resource) k).symm
    exact throughout_releasing dropped later

theorem throughout_marks (closed : ∀ ns ns' : Namespace,
      (∀ k, ns'.lock k = ns.lock k ∨ (ns'.lock k).state.leaving = true) → Q ns → Q ns')
    (ready : ns.Ready ls)
    (each : ∀ before after, ls = before ++ after → Q (before.foldl cancelLock ns))
    (last : Throughout Q (ls.foldl cancelLock ns) rest) :
    Throughout Q ns (ls.map (.mark · true) ++ rest) := by
  induction ls generalizing ns with
  | nil => exact last
  | cons l ls ih =>
    refine throughout_mark closed (ready.alive l List.mem_cons_self).1 ready.edge
      (each [] (l :: ls) rfl) ?_
    refine ih ready.next.1 (fun before after split => ?_) last
    exact each (l :: before) after (by rw [split, List.cons_append])

end

end Namespace

namespace System

variable {config : Config} {s : System}

/-- The locks of `owner` on `r`, in the order in which they would be canceled. -/
def belongings (s : System) (owner : Owner) (r : ResourceId) : List LockId :=
  (s.space.ownedBy owner).filter fun l => (s.space.lock l).resource = r

theorem without_belongings (sound : s.Sound) (room : s.space.handles.slots.size ≤ UInt32.size)
    (owner : Owner) (r : ResourceId) :
    (s.queues r).without (s.belongings owner r) = (s.queues r).disown owner := by
  have owned (e : Entry) (inside : e ∈ (s.queues r).entries) :
      e.claim.id ∉ s.belongings owner r ↔ e.claim.owner ≠ owner := by
    obtain ⟨alive, bound⟩ := sound.space.alive_of_mem inside
    have claim : e.claim = (s.space.lock e.claim.id).claim :=
      sound.space.ledger.coherent.claim_eq inside
    have live := (sound.space.mem_live_iff room).mpr alive
    have name : (s.space.lock e.claim.id).claim.owner = e.claim.owner := by rw [← claim]
    simp [belongings, Namespace.ownedBy, live, bound, name]
  simp only [Queues.without, Queues.disown, Queues.mk.injEq]
  refine ⟨List.filter_congr fun e inside => ?_, List.filter_congr fun e inside => ?_,
    List.filter_congr fun e inside => ?_⟩
  · exact decide_eq_decide.mpr (owned e (Queues.mem_entries.mpr (.inl (.inl inside))))
  · exact decide_eq_decide.mpr (owned e (Queues.mem_entries.mpr (.inl (.inr inside))))
  · exact decide_eq_decide.mpr (owned e (Queues.mem_entries.mpr (.inr inside)))

/-- The resource as it is seen from those bound to it when the eviction begins. -/
theorem matches_silence (sound : s.Sound) (owner : Owner) (r : ResourceId) :
    Arbiter.Matches (fun k => k < (s.space.silence (s.space.ownedBy owner)).locks.size ∧
        ((s.space.silence (s.space.ownedBy owner)).lock k).resource = r)
      (s.space.arbiter r) ((s.space.silence (s.space.ownedBy owner)).arbiter r) := by
  have same := s.space.alike_silence (s.space.ownedBy owner)
  refine Namespace.matches_alike (.refl fun e inside => ?_) same
  obtain ⟨alive, bound⟩ := sound.space.alive_of_mem inside
  exact ⟨same.size.symm ▸ alive.1, (congrArg Lock.resource (same.outline _) :).trans bound⟩

theorem belongings_silence (s : System) (owner : Owner) (r : ResourceId) :
    (s.space.ownedBy owner).filter
      (fun l => ((s.space.silence (s.space.ownedBy owner)).lock l).resource = r) =
        s.belongings owner r := by
  refine List.filter_congr fun l _ => ?_
  rw [show ((s.space.silence (s.space.ownedBy owner)).lock l).resource = (s.space.lock l).resource from
    (congrArg Lock.resource ((s.space.alike_silence _).outline l) :)]

/-- While nobody can be granted anything, the owner's locks keep their states until they are canceled. -/
theorem throughout_evict {owner : Owner} {r : ResourceId} (sound : s.Sound)
    (ready : (s.space.silence (s.space.ownedBy owner)).Ready (s.space.ownedBy owner))
    (still : ∀ n < (s.belongings owner r).length, 0 < n →
      ((s.space.arbiter r).modifyQueues (·.without ((s.belongings owner r).take n))).Still) :
    Namespace.Throughout (fun ns => ∀ l ∈ s.belongings owner r,
        (ns.lock l).state = (s.space.lock l).state ∨ (ns.lock l).state.leaving = true)
      (Task.start s.space (.evict owner)).2 (Task.start s.space (.evict owner)).1.todo := by
  have matched := matches_silence sound owner r
  have own := s.belongings_silence owner r
  simp only [Task.start]
  generalize s.space.silence (s.space.ownedBy owner) = ns at *
  have each (before after : List LockId) (split : s.space.ownedBy owner = before ++ after)
      (l : LockId) (inside : l ∈ s.belongings owner r) :
      ((before.foldl Namespace.cancelLock ns).lock l).state = (s.space.lock l).state ∨
        ((before.foldl Namespace.cancelLock ns).lock l).state.leaving = true := by
    rw [split] at ready own
    exact ready.old_or_leaving matched own still inside
  have all := each _ [] (List.append_nil _).symm
  refine Namespace.throughout_marks (fun ns ns' kept now l inside => ?_) ready each
    (.next 0 (by simp [Stage.need]) all (.done all))
  rcases kept l with same | leaves
  · rw [same]
    exact now l inside
  · exact .inr leaves

/-- When an owner is evicted with no other operation in progress, nothing changes on a resource where it
has no lock. Elsewhere, if nobody can be granted anything before the last of its locks there is out of
the queues, it is as if they had been taken out at once and the resource had been looked at again, and
on the way each of them is in the state it was in until it is canceled. -/
theorem evicted_together (reachable : Reachable config s) (quiet : s.quiet = true)
    (room : s.space.handles.slots.size ≤ UInt32.size) (owner : Owner) :
    (∃ t, s.Carries (.evict owner) t) ∧ ∀ r,
      (s.belongings owner r = [] → ∀ t, s.Carries (.evict owner) t → t.queues r = s.queues r) ∧
      (s.belongings owner r ≠ [] →
        (∀ n < (s.belongings owner r).length, 0 < n →
          ((s.space.arbiter r).modifyQueues
            (·.without ((s.belongings owner r).take n))).Still) →
        (∀ t, s.Carries (.evict owner) t →
          t.queues r = ((s.space.arbiter r).modifyQueues (·.disown owner)).reprocess.queues) ∧
        ∀ u, s.Amid (.evict owner) u → ∀ l ∈ s.belongings owner r,
          (u.space.lock l).state = (s.space.lock l).state ∨
            (u.space.lock l).state.leaving = true) := by
  have calm := reachable.calm quiet
  have runs := calm.runs_evict room owner
  have ready := calm.ready_evict room owner
  refine ⟨reachable.sound.exists_carries quiet runs, fun r => ?_⟩
  have matched := matches_silence reachable.sound owner r
  have own := s.belongings_silence owner r
  have swept := ready.sweep matched (fun _ mine => mine) own
  have queues (t : System) (carries : s.Carries (.evict owner) t) :
      t.queues r = ((s.space.arbiter r).takeOut (s.belongings owner r)).queues := by
    rw [System.queues, carries.space_of_runs reachable.sound quiet runs]
    exact swept.queues
  refine ⟨fun none t carries => ?_, fun some still => ⟨fun t carries => ?_, fun u amid => ?_⟩⟩
  · rw [queues t carries, none]
    rfl
  · rw [queues t carries, Arbiter.queues_takeOut some still]
    have removed := without_belongings reachable.sound room owner r
    have both : (s.space.arbiter r).modifyQueues (·.without (s.belongings owner r)) =
        (s.space.arbiter r).modifyQueues (·.disown owner) :=
      congrArg (fun q => { s.space.arbiter r with queues := q }) removed
    rw [both]
  · exact amid.holds reachable.sound quiet (throughout_evict reachable.sound ready still)

/-- Two locks of one owner keep a writer waiting. -/
def readersInTheWay : System :=
  (fresh {}).follow
    (Move.through (.enqueue { key := ⟨1, 0⟩, mode := .concurrentRead, owner := ⟨"a"⟩ }) 0 ++
      Move.through (.enqueue { key := ⟨1, 0⟩, mode := .concurrentRead, owner := ⟨"a"⟩ }) 1 ++
      Move.through (.enqueue { key := ⟨1, 0⟩, mode := .exclusive, owner := ⟨"b"⟩ }) 2)

/-- When the owner is evicted, the writer is granted. -/
theorem evicted_together_readers :
    (∃ t, readersInTheWay.Carries (.evict ⟨"a"⟩) t) ∧
      ∀ t, readersInTheWay.Carries (.evict ⟨"a"⟩) t →
        t.queues 0 = { granted := [⟨(readersInTheWay.space.lock 2).claim, .exclusive⟩] } := by
  have reachable : Reachable {} readersInTheWay := reachable_follow rfl _
  obtain ⟨carried, all⟩ := evicted_together reachable (by decide +kernel) (by decide +kernel) ⟨"a"⟩
  refine ⟨carried, fun t carries => ?_⟩
  rw [((all 0).2 (by decide +kernel) (by decide +kernel)).1 t carries]
  decide +kernel

/-- A writer holds the resource, and its owner waits for it to read; another writer and another reader
wait behind. -/
def writerAndReader : System :=
  (fresh {}).follow
    (Move.through (.enqueue { key := ⟨1, 0⟩, mode := .exclusive, owner := ⟨"a"⟩ }) 0 ++
      Move.through (.enqueue { key := ⟨1, 0⟩, mode := .protectedRead, owner := ⟨"a"⟩ }) 1 ++
      Move.through (.enqueue { key := ⟨1, 0⟩, mode := .exclusive, owner := ⟨"b"⟩ }) 2 ++
      Move.through (.enqueue { key := ⟨1, 0⟩, mode := .protectedRead, owner := ⟨"c"⟩ }) 3)

/-- The owner of the writer has been evicted. -/
def writerEvicted : System :=
  (writerAndReader.start (.evict ⟨"a"⟩)).follow [.carryOut 4, .take 4, .take 4, .carryOut 4,
    .carryOut 4, .take 4, .take 4, .carryOut 4, .carryOut 4]

/-- Once the writer's lock is out, its owner's other lock is granted, and so is the reader. The other
writer would have been granted if both locks had gone at once. -/
theorem evicted_one_by_one :
    Reachable {} writerAndReader ∧ writerAndReader.quiet = true ∧
      writerAndReader.Carries (.evict ⟨"a"⟩) writerEvicted ∧
      (writerAndReader.space.lock 1).state = .waiting ∧
      (writerEvicted.space.lock 1).everGranted = true ∧
      writerEvicted.queues 0 ≠
        ((writerAndReader.space.arbiter 0).modifyQueues (·.disown ⟨"a"⟩)).reprocess.queues := by
  have fourth : writerAndReader.tasks.size = 4 := by decide +kernel
  refine ⟨reachable_follow rfl _, by decide +kernel, ⟨by decide +kernel, _, ?_, rfl⟩,
    by decide +kernel, by decide +kernel, by decide +kernel⟩
  simp [fourth, Move.By]

end System
end LockManager
