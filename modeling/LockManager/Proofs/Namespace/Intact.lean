import LockManager.Proofs.Namespace.Sweep
import LockManager.Proofs.Namespace.Unmoved
import LockManager.Proofs.Refusals
import LockManager.Proofs.Waiting

set_option autoImplicit false

/-!
What is left of a request that is taken back. A lock that is made and canceled again before it has come
to the queues leaves the others as they were, unless canceling it completes a conversion that nothing has
stood against before.
-/

namespace LockManager

theorem Queues.remove_of_empty {q : Queues} {l : LockId} (none : q.of l = {}) : q.remove l = q := by
  have other (e : Entry) (inside : e ∈ q.entries) : (e.claim.id != l) = true :=
    bne_iff_ne.mpr (not_mem_of_empty none inside)
  simp only [remove]
  congr 1
  · exact List.filter_eq_self.mpr fun e inside => other e (mem_entries.mpr (.inl (.inl inside)))
  · exact List.filter_eq_self.mpr fun e inside => other e (mem_entries.mpr (.inl (.inr inside)))
  · exact List.filter_eq_self.mpr fun e inside => other e (mem_entries.mpr (.inr inside))

namespace Namespace

/-- The queues under a key, if there is anything under it. -/
def queuesUnder (ns : Namespace) (k : Key) : Option Queues :=
  (ns.index.get? k).map fun r => (ns.resource r).queues

/-- The same handles name locks; these are what they were, but for the messages to their owners; and the
same keys have resources, with the same queues. -/
structure Intact (ns ns' : Namespace) : Prop where
  live : ∀ h, ns'.handles.get? h = ns.handles.get? h
  lock : ∀ h l, ns.handles.get? h = some l → (ns'.lock l).outline = (ns.lock l).outline
  queues : ∀ k, ns'.queuesUnder k = ns.queuesUnder k

variable {ns ns' made : Namespace} {l : LockId} {r : ResourceId} {k : Key} {req : LockRequest}

theorem Intact.refl (ns : Namespace) : Intact ns ns := ⟨fun _ => rfl, fun _ _ _ => rfl, fun _ => rfl⟩

namespace Resting

/-- The index has the resources that live locks are bound to, and no others. -/
theorem index_iff (rest : ns.Resting) : ns.index.get? k = some r ↔
    ∃ l, ns.Alive l ∧ (ns.lock l).key = k ∧ (ns.lock l).resource = r := by
  constructor
  · intro there
    have used : (ns.binders r).card ≠ 0 := by
      intro none
      refine rest.counted.unused k r there ?_
      rw [rest.counted.count, none]
      rfl
    obtain ⟨l, bound⟩ := Finset.card_pos.mp (Nat.pos_of_ne_zero used)
    obtain ⟨alive, rfl⟩ := mem_binders.mp bound
    exact ⟨l, alive, (rest.counted.named l alive.1).trans (rest.counted.keyed k _ there), rfl⟩
  · rintro ⟨l, alive, rfl, rfl⟩
    exact rest.counted.indexed alive

/-- The same locks are live, and those are what they were. -/
theorem intact (rest : ns.Resting) (rest' : ns'.Resting) (alive : ∀ l, ns'.Alive l ↔ ns.Alive l)
    (lock : ∀ l, ns.Alive l → (ns'.lock l).outline = (ns.lock l).outline)
    (queues : ∀ r, (ns'.resource r).queues = (ns.resource r).queues) : Intact ns ns' := by
  have index (k : Key) : ns'.index.get? k = ns.index.get? k := by
    refine Option.ext fun r => ?_
    rw [rest.index_iff, rest'.index_iff]
    refine exists_congr fun l => ?_
    rw [alive l]
    refine and_congr_right fun lives => ?_
    rw [show (ns'.lock l).key = (ns.lock l).key from (congrArg Lock.key (lock l lives) :),
      show (ns'.lock l).resource = (ns.lock l).resource from (congrArg Lock.resource (lock l lives) :)]
  refine ⟨fun h => Option.ext fun l => ?_, fun h l found => lock l (rest.get?_iff.mp found).1,
    fun k => ?_⟩
  · rw [rest.get?_iff, rest'.get?_iff, alive l]
    refine and_congr_right fun lives => ?_
    rw [show (ns'.lock l).handle = (ns.lock l).handle from
      congrArg Claim.handle (congrArg Lock.claim (lock l lives) :)]
  · unfold queuesUnder
    rw [index]
    exact Option.map_congr fun r _ => queues r

theorem settled_at (rest : ns.Resting) (r : ResourceId) : ns.ledger.Settled r := by
  refine (rest.sound.ledger.attended r).resolve_left ?_
  rintro ⟨e, inside, gone⟩
  have stays := (rest.settled (rest.sound.alive_of_mem inside).1).stays
  rw [show (ns.lock e.claim.id).state.leaving = true from gone] at stays
  cases stays

/-- Nothing can be granted where every pending conversion is stood against. -/
theorem still (rest : ns.Resting) (r : ResourceId)
    (opposed : ∀ e ∈ (ns.resource r).queues.converting, (ns.resource r).queues.Opposed e) :
    (ns.arbiter r).Still := by
  refine ⟨fun e inside => List.any_eq_true.mpr (opposed e inside), fun e inside => ?_⟩
  refine grantable_of_blocked rest.sound.ledger.coherent (((rest.settled_at r).2 e inside).resolve_left ?_)
  intro gone
  have stays := (rest.settled (rest.sound.alive_of_mem (Queues.mem_entries.mpr (.inr inside))).1).stays
  rw [show (ns.lock e.claim.id).state.leaving = true from gone] at stays
  cases stays

/-- Canceling a lock that has no entry is no concern of anybody else's where nothing can be granted. -/
theorem others_of_still (rest : ns.Resting) (alive : ns.Alive l)
    (absent : (ns.resource (ns.lock l).resource).queues.of l = {})
    (still : (ns.arbiter (ns.lock l).resource).Still) :
    (∀ k, k ≠ l → k < ns.locks.size → ((ns.cancelLock l).lock k).outline = (ns.lock k).outline) ∧
      ∀ r, ((ns.cancelLock l).resource r).queues = (ns.resource r).queues := by
  have sound := rest.sound
  have stays := rest.stays l alive.1
  have out : (ns.arbiter (ns.lock l).resource).modifyQueues (·.remove l) =
      ns.arbiter (ns.lock l).resource := by
    have same : (ns.resource (ns.lock l).resource).queues.remove l = _ :=
      Queues.remove_of_empty absent
    simp only [Arbiter.modifyQueues, arbiter, same]
  -- on the resource itself, the locks bound to it are looked at again, with nothing to grant
  have within (e : Entry) (inside : e ∈ (ns.arbiter (ns.lock l).resource).queues.entries) :
      (ns.lock e.claim.id).resource = (ns.lock l).resource := (sound.alive_of_mem inside).2
  have seen := matches_cancelLock sound alive stays rfl
    (.refl (P := fun k => (ns.lock k).resource = (ns.lock l).resource) within)
  rw [out] at seen
  have same := still.matches (P := fun k => (ns.lock k).resource = (ns.lock l).resource) within
  refine ⟨fun k other known => ?_, fun r => ?_⟩
  · by_cases here : (ns.lock k).resource = (ns.lock l).resource
    · exact (seen.lock k ⟨here, other⟩).trans (same.lock k here)
    · refine outline_cancelLock_of_ne sound alive stays other ?_
      exact sound.ledger.coherent.elsewhere k known _ fun there => here there.symm
  · by_cases here : r = (ns.lock l).resource
    · rw [here]
      exact seen.queues.trans same.queues
    · exact queues_cancelLock_of_ne sound alive stays here

/-- A lock that has been made and canceled again leaves everything as it was. -/
theorem intact_taken_back (rest : ns.Resting) (fresh : ns.Fresh) (valid : req.policy.fault? = none)
    (opposed : ∀ q, ns.queuesUnder req.key = some q → ∀ e ∈ q.converting, q.Opposed e) :
    Intact ns ((ns.addLock req).2.cancelLock ns.locks.size) := by
  have adds : Adds ns req (ns.addLock req).2 := rest.addLock fresh valid
  have made := ns.ledger_addLock req
  generalize (ns.addLock req).2 = ns₁ at adds made ⊢
  obtain ⟨x, made, -⟩ := made
  have queues (r : ResourceId) : (ns₁.resource r).queues = (ns.resource r).queues :=
    congrFun (congrArg Ledger.queues made) r
  obtain ⟨place, new⟩ := adds.new
  have key : (ns₁.lock ns.locks.size).key = req.key := by rw [new]; rfl
  have absent : (ns₁.resource (ns₁.lock ns.locks.size).resource).queues.of ns.locks.size = {} := by
    have settled := adds.resting.settled adds.alive
    rcases settled with ⟨-, -, none⟩ | ⟨state, -⟩ | ⟨state, -⟩ | ⟨state, -⟩
    · exact none
    all_goals
      rw [new] at state
      cases state
  have still : (ns₁.arbiter (ns₁.lock ns.locks.size).resource).Still := by
    refine adds.resting.still _ fun e inside => ?_
    rw [queues] at inside ⊢
    -- whoever has an entry there was under the same key before
    obtain ⟨alive, here⟩ := rest.sound.alive_of_mem (Queues.mem_entries.mpr (.inl (.inr inside)))
    have named := adds.resting.counted.named
    have under : (ns.lock e.claim.id).key = req.key := by
      rw [← adds.old _ alive.1, named _ (adds.size ▸ Nat.lt_succ_of_lt alive.1), adds.old _ alive.1,
        here, ← named _ adds.alive.1, key]
    refine opposed _ ?_ e inside
    rw [queuesUnder, ← under, rest.counted.indexed alive, here]
    rfl
  obtain ⟨deals, retired⟩ := adds.resting.cancelLock adds.alive
  obtain ⟨others, queues'⟩ := adds.resting.others_of_still adds.alive absent still
  have outline (k : LockId) (known : k < ns.locks.size) :
      ((ns₁.cancelLock ns.locks.size).lock k).outline = (ns.lock k).outline := by
    rw [others k (Nat.ne_of_lt known) (adds.size ▸ Nat.lt_succ_of_lt known), adds.old k known]
  refine rest.intact deals.resting (fun k => ⟨fun alive => ?_, fun alive => ?_⟩)
    (fun k alive => outline k alive.1) fun r => (queues' r).trans (queues r)
  · have below := Nat.lt_succ_iff_lt_or_eq.mp (Nat.lt_of_lt_of_eq alive.1 (deals.size.trans adds.size))
    rcases below with known | rfl
    · exact ⟨known, (congrArg Lock.retired (outline k known) :).symm.trans alive.2⟩
    · exact absurd (alive.2.symm.trans retired) Bool.false_ne_true
  · refine ⟨Nat.lt_of_lt_of_eq (Nat.lt_succ_of_lt alive.1) (deals.size.trans adds.size).symm, ?_⟩
    exact (congrArg Lock.retired (outline k alive.1) :).trans alive.2

end Resting
end Namespace
end LockManager
