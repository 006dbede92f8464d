import LockManager.Proofs.Namespace.Books
import Mathlib.Data.Finset.Card

set_option autoImplicit false

/-!
References to resources. A lock has one reference to the resource it is bound to, and whoever is
about to bind a lock or to look at a resource has one too. As long as all of them are counted, the
index holds every resource that is referred to.
-/

namespace LockManager
namespace Namespace

/-! ### Counting -/

instance (ns : Namespace) : DecidablePred ns.Alive := fun l =>
  inferInstanceAs (Decidable (l < ns.locks.size ∧ (ns.lock l).retired = false))

/-- The locks not done with that are bound to `r`. -/
def binders (ns : Namespace) (r : ResourceId) : Finset LockId :=
  (Finset.range ns.locks.size).filter fun l => ns.Alive l ∧ (ns.lock l).resource = r

@[simp] theorem mem_binders {ns : Namespace} {r : ResourceId} {l : LockId} :
    l ∈ ns.binders r ↔ ns.Alive l ∧ (ns.lock l).resource = r := by
  simp only [binders, Finset.mem_filter, Finset.mem_range, and_iff_right_iff_imp]
  exact fun bound => bound.1.1

/-- One reference to `r`. -/
def reference (r : ResourceId) : ResourceId → Nat := fun q => if q = r then 1 else 0

/-- All references are counted: those of locks and the `claims` of whoever is in the middle of
something. A resource that nobody refers to any more is `due` to go. -/
structure Counted (ns : Namespace) (claims : ResourceId → Nat) (due : ResourceId → Prop) :
    Prop where
  keyed : ∀ k r, ns.index.get? k = some r → (ns.resource r).key = k
  count : ∀ r, (ns.resource r).refs = (ns.binders r).card + claims r
  found : ∀ r, 0 < (ns.resource r).refs → ns.index.get? (ns.resource r).key = some r
  named : ∀ l, l < ns.locks.size → (ns.lock l).key = (ns.resource (ns.lock l).resource).key
  unused : ∀ k r, ns.index.get? k = some r → (ns.resource r).refs = 0 → due r

namespace Counted

variable {ns ns' : Namespace} {claims : ResourceId → Nat} {due due' : ResourceId → Prop}
  {r : ResourceId} {l : LockId}

theorem mono (c : ns.Counted claims due) (more : ∀ r, due r → due' r) : ns.Counted claims due' :=
  ⟨c.keyed, c.count, c.found, c.named, fun k r found none => more r (c.unused k r found none)⟩

/-- Whoever is referred to is in the index under its key. -/
theorem indexed (c : ns.Counted claims due) (alive : ns.Alive l) :
    ns.index.get? (ns.lock l).key = some (ns.lock l).resource := by
  rw [c.named l alive.1]
  apply c.found
  rw [c.count]
  exact Nat.add_pos_left (Finset.card_pos.mpr ⟨l, mem_binders.mpr ⟨alive, rfl⟩⟩) _

/-- No lock has been bound or let go. -/
theorem of_same (c : ns.Counted claims due) (same : ns'.catalog = ns.catalog)
    (size : ns'.locks.size = ns.locks.size)
    (lock : ∀ l, (ns'.lock l).retired = (ns.lock l).retired ∧
      (ns'.lock l).resource = (ns.lock l).resource ∧ (ns'.lock l).key = (ns.lock l).key) :
    ns'.Counted claims due := by
  have index : ns'.index = ns.index := congrArg Catalog.index same
  have refs : ∀ r, (ns'.resource r).refs = (ns.resource r).refs :=
    congrFun (congrArg Catalog.refs same)
  have key : ∀ r, (ns'.resource r).key = (ns.resource r).key := congrFun (congrArg Catalog.key same)
  have binders : ∀ r, ns'.binders r = ns.binders r := by
    intro r
    ext l
    simp only [mem_binders, Alive, size, lock]
  refine ⟨fun k r found => ?_, fun r => ?_, fun r used => ?_, fun l known => ?_,
    fun k r found => ?_⟩
  · rw [key]
    exact c.keyed k r (index ▸ found)
  · rw [refs, binders]
    exact c.count r
  · rw [refs] at used
    rw [index, key]
    exact c.found r used
  · rw [(lock l).2.2, (lock l).2.1, key]
    exact c.named l (size ▸ known)
  · rw [refs]
    exact c.unused k r (index ▸ found)

theorem onward (c : ns.Counted claims due) (onward : Onward ns ns')
    (same : ns'.catalog = ns.catalog) : ns'.Counted claims due := by
  refine c.of_same same onward.keeps.size fun l => ?_
  have stays := onward.keeps.lock l
  exact ⟨stays.retired, stays.resource, stays.key⟩

theorem alike (c : ns.Counted claims due) (alike : Alike ns ns')
    (same : ns'.catalog = ns.catalog) : ns'.Counted claims due := by
  refine c.of_same same alike.size fun l => ?_
  have lock := alike.lock l
  exact ⟨(congrArg Lock.retired lock :), (congrArg Lock.resource lock :),
    (congrArg Lock.key lock :)⟩

/-! ### Taking references -/

theorem resource_addRef (ns : Namespace) (inside : r < ns.resources.size) (q : ResourceId) :
    ((ns.addRef r).resource q).refs = (ns.resource q).refs + reference r q ∧
      ((ns.addRef r).resource q).key = (ns.resource q).key := by
  unfold addRef modifyResource Namespace.resource reference
  rw [Arena.get_modify]
  by_cases same : r = q
  · simp [same, same ▸ inside]
  · simp [same, Ne.symm same]

theorem addRef (c : ns.Counted claims due) (inside : r < ns.resources.size) {k : Key}
    (there : ns.index.get? k = some r) : (ns.addRef r).Counted (claims + reference r) due := by
  have now := resource_addRef ns inside
  refine ⟨fun k' q found => ?_, fun q => ?_, fun q used => ?_, fun l known => ?_,
    fun k' q found none => ?_⟩
  · rw [(now q).2]
    exact c.keyed k' q found
  · rw [(now q).1, c.count, Pi.add_apply, ← Nat.add_assoc]
    rfl
  · rw [(now q).2]
    by_cases same : q = r
    · rw [same, c.keyed k r there]
      exact there
    · apply c.found q
      rwa [(now q).1, reference, if_neg same] at used
  · rw [(now _).2]
    exact c.named l known
  · rw [(now q).1] at none
    exact c.unused k' q found (Nat.eq_zero_of_add_eq_zero_right none)

/-- A resource has been made for someone who refers to it. -/
theorem make (c : ns.Counted claims due) (sound : ns.Sound) {k : Key}
    (absent : ns.index.get? k = none) (locks : ns'.locks = ns.locks)
    (index : ns'.index = ns.index.insert k ns.resources.size)
    (resource : ∀ q, ns'.resource q =
      if q = ns.resources.size then { key := k, refs := 1 } else ns.resource q) :
    ns'.Counted (claims + reference ns.resources.size) due := by
  have lock : ∀ l, ns'.lock l = ns.lock l := fun l => by rw [Namespace.lock, locks]; rfl
  have binders : ∀ q, ns'.binders q = ns.binders q := by
    intro q
    ext l
    simp only [mem_binders, Alive, lock, locks]
  have nobody : (ns.resource ns.resources.size).refs = 0 := by
    rw [Namespace.resource, Arena.get, Array.getD_eq_getD_getElem?, Arena.size,
      Array.getElem?_size]
    rfl
  refine ⟨fun k' q there => ?_, fun q => ?_, fun q used => ?_, fun l known => ?_,
    fun k' q there none => ?_⟩
  · rw [index, Index.get?_insert] at there
    split at there
    · next same =>
      cases there
      rw [resource, if_pos rfl, same]
    · rw [resource, if_neg (Nat.ne_of_lt (sound.indexed k' q there))]
      exact c.keyed k' q there
  · have count := c.count q
    rw [resource, binders, Pi.add_apply, reference]
    by_cases same : q = ns.resources.size
    · rw [same] at count ⊢
      rw [if_pos rfl, if_pos rfl, ← Nat.add_assoc, ← count, nobody]
    · rw [if_neg same, if_neg same]
      exact count
  · rw [resource] at used ⊢
    rw [index, Index.get?_insert]
    by_cases same : q = ns.resources.size
    · simp [same]
    · rw [if_neg same] at used ⊢
      have there := c.found q used
      rw [if_neg, there]
      intro here
      rw [here, absent] at there
      cases there
  · rw [locks] at known
    rw [lock, resource, if_neg (Nat.ne_of_lt (sound.placed l known))]
    exact c.named l known
  · rw [index, Index.get?_insert] at there
    rw [resource] at none
    split at there
    · cases there
      simp at none
    · rw [if_neg (Nat.ne_of_lt (sound.indexed k' q there))] at none
      exact c.unused k' q there none

theorem findOrCreate (c : ns.Counted claims due) (sound : ns.Sound) (k : Key) :
    (ns.findOrCreate k).2.Counted (claims + reference (ns.findOrCreate k).1) due ∧
      ((ns.findOrCreate k).2.resource (ns.findOrCreate k).1).key = k := by
  unfold Namespace.findOrCreate
  cases there : ns.index.get? k with
  | some r =>
    have inside := sound.indexed k r there
    exact ⟨c.addRef inside there, (resource_addRef ns inside r).2.trans (c.keyed k r there)⟩
  | none =>
    have resource := ns.resources.get_alloc { key := k, refs := 1 }
    exact ⟨c.make sound there rfl rfl resource,
      congrArg Resource.key ((resource _).trans (if_pos rfl))⟩

/-! ### Changes of one lock -/

theorem card_binders {q : ResourceId}
    (others : ∀ k, k ≠ l → (k ∈ ns'.binders q ↔ k ∈ ns.binders q)) :
    (ns'.binders q).card + (if l ∈ ns.binders q then 1 else 0) =
      (ns.binders q).card + if l ∈ ns'.binders q then 1 else 0 := by
  have same : (ns'.binders q).erase l = (ns.binders q).erase l := by
    ext k
    simp only [Finset.mem_erase]
    exact and_congr_right fun other => others k other
  have count : ∀ s : Finset LockId, (s.erase l).card + (if l ∈ s then 1 else 0) = s.card := by
    intro s
    split
    · next inside => exact Finset.card_erase_add_one inside
    · next outside => rw [Finset.erase_eq_of_notMem outside, Nat.add_zero]
  have before := count (ns.binders q)
  have after := count (ns'.binders q)
  rw [same] at after
  omega

/-- Only `l` has been bound or let go, and whoever did so had or has the reference. -/
theorem change (c : ns.Counted claims due) {claims' : ResourceId → Nat}
    (same : ns'.catalog = ns.catalog)
    (others : ∀ k, k ≠ l → (k < ns'.locks.size ↔ k < ns.locks.size) ∧
      (ns'.lock k).retired = (ns.lock k).retired ∧
      (ns'.lock k).resource = (ns.lock k).resource ∧ (ns'.lock k).key = (ns.lock k).key)
    (named : l < ns'.locks.size → (ns'.lock l).key = (ns'.resource (ns'.lock l).resource).key)
    (balance : ∀ q, claims' q + (if l ∈ ns'.binders q then 1 else 0) =
      claims q + if l ∈ ns.binders q then 1 else 0) :
    ns'.Counted claims' due := by
  have index : ns'.index = ns.index := congrArg Catalog.index same
  have refs : ∀ r, (ns'.resource r).refs = (ns.resource r).refs :=
    congrFun (congrArg Catalog.refs same)
  have key : ∀ r, (ns'.resource r).key = (ns.resource r).key := congrFun (congrArg Catalog.key same)
  refine ⟨fun k r found => ?_, fun r => ?_, fun r used => ?_, fun k known => ?_,
    fun k r found => ?_⟩
  · rw [key]
    exact c.keyed k r (index ▸ found)
  · have alike : ∀ k, k ≠ l → (k ∈ ns'.binders r ↔ k ∈ ns.binders r) := by
      intro k other
      simp only [mem_binders, Alive, others k other]
    have cards := card_binders alike
    have count := c.count r
    have even := balance r
    rw [refs]
    omega
  · rw [refs] at used
    rw [index, key]
    exact c.found r used
  · by_cases here : k = l
    · rw [here] at known ⊢
      exact named known
    · obtain ⟨size, -, resource, name⟩ := others k here
      rw [name, resource, key]
      exact c.named k (size.mp known)
  · rw [refs]
    exact c.unused k r (index ▸ found)

/-! ### Letting go -/

theorem resource_dropRef (ns : Namespace) (r q : ResourceId) :
    ((ns.dropRef r).resource q).refs = (ns.resource q).refs - reference r q ∧
      ((ns.dropRef r).resource q).key = (ns.resource q).key := by
  unfold Namespace.dropRef modifyResource Namespace.resource reference
  rw [Arena.get_modify]
  by_cases same : r = q
  · by_cases inside : r < ns.resources.size
    · simp [same, same ▸ inside]
    · have nothing : (ns.resources.get q).refs = 0 := by
        rw [Arena.get, Array.getD_eq_getD_getElem?,
          Array.getElem?_eq_none (Nat.le_of_not_lt (same ▸ inside))]
        rfl
      simp [same, same ▸ inside, nothing]
  · simp [same, Ne.symm same]

/-- Whoever drops the last reference has to see to it that the resource goes. -/
theorem dropRef (c : ns.Counted (claims + reference r) due) :
    (ns.dropRef r).Counted claims fun q => due q ∨ q = r ∧ (ns.dropRef r).unused r = true := by
  have now := resource_dropRef ns r
  refine ⟨fun k q found => ?_, fun q => ?_, fun q used => ?_, fun l known => ?_,
    fun k q found none => ?_⟩
  · rw [(now q).2]
    exact c.keyed k q found
  · rw [(now q).1, c.count, Pi.add_apply, ← Nat.add_assoc, Nat.add_sub_cancel]
    rfl
  · rw [(now q).1] at used
    rw [(now q).2]
    exact c.found q (Nat.lt_of_lt_of_le used (Nat.sub_le _ _))
  · rw [(now _).2]
    exact c.named l known
  · by_cases same : q = r
    · rw [same] at none
      exact .inr ⟨same, decide_eq_true none⟩
    · rw [(now q).1, reference, if_neg same] at none
      exact .inl (c.unused k q found none)

/-- Only locks not done with have entries. -/
theorem queues_isEmpty (sound : ns.Sound) (nobody : ns.binders r = ∅) :
    (ns.resource r).queues.isEmpty = true := by
  have alone : ∀ e, e ∉ (ns.resource r).queues.entries := by
    intro e inside
    have binder : e.claim.id ∈ ns.binders r := mem_binders.mpr (sound.alive_of_mem inside)
    rw [nobody] at binder
    exact Finset.notMem_empty _ binder
  have none : ∀ es : List Entry, (∀ e ∈ es, e ∈ (ns.resource r).queues.entries) → es = [] :=
    fun es inside => List.eq_nil_iff_forall_not_mem.mpr fun e member => alone e (inside e member)
  unfold Queues.isEmpty
  rw [none _ fun e granted => Queues.mem_entries.mpr (.inl (.inl granted)),
    none _ fun e converting => Queues.mem_entries.mpr (.inl (.inr converting)),
    none _ fun e waiting => Queues.mem_entries.mpr (.inr waiting)]
  rfl

/-- A resource that nobody refers to goes, and whoever was to see to it is done. -/
theorem reclaim (c : ns.Counted claims fun q => due q ∨ q = r) (sound : ns.Sound) :
    (ns.reclaim r).Counted claims due := by
  have goes : (ns.resource r).refs = 0 → (ns.resource r).queues.isEmpty = true := by
    intro none
    apply queues_isEmpty sound
    rw [c.count] at none
    exact Finset.card_eq_zero.mp (Nat.eq_zero_of_add_eq_zero_right none)
  by_cases last : (ns.resource r).refs = 0 ∧ ns.index.get? (ns.resource r).key = some r
  · have gone : ns.reclaim r = { ns with index := ns.index.erase (ns.resource r).key } := by
      unfold Namespace.reclaim
      simp [last, goes last.1]
    rw [gone]
    refine ⟨fun k q there => ?_, c.count, fun q used => ?_, c.named, fun k q there none => ?_⟩
    · rw [Index.get?_erase] at there
      split at there
      · cases there
      · exact c.keyed k q there
    · have there := c.found q used
      have other : (ns.resource q).key ≠ (ns.resource r).key := by
        intro same
        rw [same, last.2] at there
        cases there
        exact Nat.ne_of_gt used last.1
      exact (Index.get?_erase ..).trans ((if_neg other).trans there)
    · rw [Index.get?_erase] at there
      split at there
      · cases there
      · next other =>
        apply (c.unused k q there none).resolve_right
        rintro rfl
        exact other (c.keyed k _ there).symm
  · have still : ns.reclaim r = ns := by
      unfold Namespace.reclaim
      dsimp only
      rw [if_neg]
      simp only [Bool.and_eq_true, decide_eq_true_eq]
      exact fun all => last ⟨all.1.1, all.2⟩
    rw [still]
    refine ⟨c.keyed, c.count, c.found, c.named, fun k q there none => ?_⟩
    apply (c.unused k q there none).resolve_right
    rintro rfl
    exact last ⟨none, (c.keyed k _ there).symm ▸ there⟩

end Counted
end Namespace
end LockManager
