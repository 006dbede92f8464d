import LockManager.Namespace.Views
import LockManager.Proofs.Namespace.Refusals

set_option autoImplicit false

/-!
The record of a resource can be any. A resource that has been made and given up leaves its record behind, and
those made later have others then; nothing that a namespace does or shows depends on which.
-/

namespace LockManager

/-- Where nobody is queued, a lock is granted at once. -/
theorem Arbiter.receive_of_empty {a : Arbiter} {claim : Claim} (empty : a.queues = {})
    (enqueued : (a.lock claim.id).state = .enqueued) (mode : Mode) :
    a.receive claim mode =
      { a with
        locks := a.locks.modify claim.id fun _ => ((a.lock claim.id).enter .granted).hold mode
        queues := { granted := [⟨claim, mode⟩] } } := by
  have free : a.grantable claim mode = true := by
    unfold grantable opposed Queues.earlier
    rw [empty]
    rfl
  have nobody : a.recordBypass claim mode = a := by
    unfold recordBypass Queues.earlier
    rw [empty]
    rfl
  have edge : (a.lock claim.id).advance? .granted = some ((a.lock claim.id).enter .granted) :=
    Lock.advance?_of_allows (by rw [enqueued]; rfl)
  have entered : a.enter? claim.id mode false =
      some (a.modifyLock claim.id fun _ => ((a.lock claim.id).enter .granted).hold mode) := by
    unfold enter?
    rw [edge]
    rfl
  unfold receive grant
  rw [if_pos free, nobody, entered]
  simp only [modifyLock, modifyQueues, empty]
  rfl

namespace Namespace

/-- The one namespace is the other but for the records of the resources, which `f` takes to those that stand
for them. Further records there may be, but nobody refers to them and no lock is queued there. -/
structure Renumbers (f : ResourceId → ResourceId) (ns ns' : Namespace) : Prop where
  config : ns'.config = ns.config
  clock : ns'.clock = ns.clock
  stopping : ns'.stopping = ns.stopping
  handles : ns'.handles = ns.handles
  replays : ns'.replays = ns.replays
  dispatcher : ns'.dispatcher = ns.dispatcher
  size : ns'.locks.size = ns.locks.size
  lock : ∀ l, l < ns.locks.size → ns'.lock l = { ns.lock l with resource := f (ns.lock l).resource }
  index : ns'.index.entries = ns.index.entries.map fun e => (e.1, f e.2)
  known : ∀ r, r < ns.resources.size → f r < ns'.resources.size
  resource : ∀ r, r < ns.resources.size → ns'.resource (f r) = ns.resource r
  injective : ∀ r q, r < ns.resources.size → q < ns.resources.size → f r = f q → r = q
  spare : ∀ q, q < ns'.resources.size → (∀ r, r < ns.resources.size → f r ≠ q) →
    (ns'.resource q).refs = 0 ∧ (ns'.resource q).queues = {}

variable {ns ns' : Namespace} {f : ResourceId → ResourceId} {k : Key} {req : LockRequest}

/-- Whatever is in the index is a resource. -/
theorem Sound.lt_of_mem_index (sound : ns.Sound) (distinct : ns.index.Distinct)
    {e : Key × ResourceId} (inside : e ∈ ns.index.entries) : e.2 < ns.resources.size :=
  sound.indexed e.1 e.2 (distinct.get?_of_mem inside)

namespace Renumbers

theorem refl (ns : Namespace) : Renumbers id ns ns where
  config := rfl
  clock := rfl
  stopping := rfl
  handles := rfl
  replays := rfl
  dispatcher := rfl
  size := rfl
  lock _ _ := rfl
  index := (List.map_id _).symm
  known _ known := known
  resource _ _ := rfl
  injective _ _ _ _ same := same
  spare q known other := absurd rfl (other q known)

theorem reply (renumbers : Renumbers f ns ns') {l : LockId} (known : l < ns.locks.size) :
    ns'.reply l = ns.reply l := by
  unfold Namespace.reply
  rw [renumbers.lock l known]
  rfl

/-- The locks show the same. -/
theorem lockViews (renumbers : Renumbers f ns ns') (sound : ns.Sound) :
    ns'.lockViews = ns.lockViews := by
  unfold Namespace.lockViews live
  rw [renumbers.handles]
  refine List.map_congr_left fun l inside => ?_
  rw [renumbers.lock l (sound.listed l (List.mem_mergeSort.mp inside))]
  rfl

/-- The resources show the same, in the same order. -/
theorem resourceViews (renumbers : Renumbers f ns ns') (sound : ns.Sound)
    (distinct : ns.index.Distinct) : ns'.resourceViews = ns.resourceViews := by
  have sorted : (ns.index.entries.map fun e => (e.1, f e.2)).mergeSort (fun a b => a.1.le b.1) =
      (ns.index.entries.mergeSort fun a b => a.1.le b.1).map fun e => (e.1, f e.2) :=
    (List.map_mergeSort (f := fun e : Key × ResourceId => (e.1, f e.2)) fun _ _ _ _ => rfl).symm
  unfold Namespace.resourceViews indexed
  rw [renumbers.index, sorted, List.map_map, List.map_map, List.map_map]
  refine List.map_congr_left fun e inside => ?_
  have known := sound.lt_of_mem_index distinct (List.mem_mergeSort.mp inside)
  exact congrArg Resource.view (renumbers.resource e.2 known)

end Renumbers

/-! ### Taking a reference -/

theorem findOrCreate_of_known {r : ResourceId} (there : ns.index.get? k = some r) :
    ns.findOrCreate k = (r, ns.addRef r) := by
  unfold findOrCreate
  rw [there]

theorem findOrCreate_of_unknown (unknown : ns.index.get? k = none) : ns.findOrCreate k =
    (ns.resources.size,
      { ns with
        resources := ns.resources.alloc { key := k, refs := 1 }
        index := ns.index.insert k ns.resources.size }) := by
  unfold findOrCreate
  rw [unknown]

/-! ### A spare record -/

/-- A resource has been made and given up. -/
def withSpare (ns : Namespace) (k : Key) : Namespace :=
  { ns with resources := ns.resources.alloc { key := k } }

theorem size_withSpare (ns : Namespace) (k : Key) :
    (ns.withSpare k).resources.size = ns.resources.size + 1 := Arena.size_alloc ..

theorem resource_withSpare (k : Key) {r : ResourceId} (known : r < ns.resources.size) :
    (ns.withSpare k).resource r = ns.resource r :=
  (ns.resources.get_alloc _ r).trans (if_neg (Nat.ne_of_lt known))

theorem resource_withSpare_self (ns : Namespace) (k : Key) :
    (ns.withSpare k).resource ns.resources.size = { key := k } := ns.resources.get_alloc_size _

theorem renumbers_withSpare (ns : Namespace) (k : Key) : Renumbers id ns (ns.withSpare k) where
  config := rfl
  clock := rfl
  stopping := rfl
  handles := rfl
  replays := rfl
  dispatcher := rfl
  size := rfl
  lock _ _ := rfl
  index := (List.map_id _).symm
  known _ known := Nat.lt_of_lt_of_eq (Nat.lt_succ_of_lt known) (size_withSpare ns k).symm
  resource _ known := resource_withSpare k known
  injective _ _ _ _ same := same
  spare q known other := by
    have last : q = ns.resources.size := by
      have below : q < ns.resources.size + 1 := Nat.lt_of_lt_of_eq known (size_withSpare ns k)
      exact Nat.le_antisymm (Nat.le_of_lt_succ below) (Nat.le_of_not_lt fun lower => other q lower rfl)
    rw [last, resource_withSpare_self]
    exact ⟨rfl, rfl⟩

theorem schedule_withSpare (k : Key) (l : LockId) :
    (ns.withSpare k).schedule l = (ns.schedule l).withSpare k := by
  unfold schedule
  rw [show (ns.withSpare k).lock l = ns.lock l from rfl,
    show (ns.withSpare k).dispatcher = ns.dispatcher from rfl]
  dsimp only
  split
  · rfl
  · split <;> rfl

theorem dispatch_withSpare (k : Key) (touched : List LockId) :
    (ns.withSpare k).dispatch touched = (ns.dispatch touched).withSpare k := by
  unfold dispatch
  induction touched generalizing ns with
  | nil => rfl
  | cons l touched ih => rw [List.foldl_cons, List.foldl_cons, schedule_withSpare, ih]

theorem conclude_withSpare (k : Key) {r : ResourceId} (known : r < ns.resources.size) (a : Arbiter) :
    (ns.withSpare k).conclude r a = (ns.conclude r a).withSpare k := by
  unfold conclude
  rw [← dispatch_withSpare]
  simp only [withSpare, Arena.modify_alloc_of_lt _ known]

theorem addLock_withSpare (k : Key) {r : ResourceId} (there : ns.index.get? req.key = some r)
    (known : r < ns.resources.size) :
    ((ns.withSpare k).addLock req).2 = (ns.addLock req).2.withSpare k := by
  have taken : (ns.withSpare k).addRef r = (ns.addRef r).withSpare k := by
    simp only [addRef, modifyResource, withSpare, Arena.modify_alloc_of_lt _ known]
  have there' : (ns.withSpare k).index.get? req.key = some r := there
  unfold addLock
  rw [findOrCreate_of_known there', findOrCreate_of_known there, taken]
  rfl

/-! ### A request on a key that nobody refers to -/

/-- The claim of the lock that a request makes. -/
def claimFor (ns : Namespace) (req : LockRequest) : Claim :=
  { id := ns.locks.size, handle := ns.handles.upcoming, owner := req.owner, policy := req.policy
    clientSeq := req.clientSeq }

/-- Makes a lock on a request, bound to `r`, to which someone has a reference for it. -/
def enroll (ns : Namespace) (req : LockRequest) (r : ResourceId) : Namespace :=
  { ns with
    locks := ns.locks.alloc
      (.create (ns.claimFor req) req.mode r req.key ns.config.historyDepth)
    handles := ns.handles.insertWith fun _ => ns.locks.size
    replays :=
      match req.clientSeq with
      | some seq => ns.replays.insert (req.owner, seq) ns.handles.upcoming
      | none => ns.replays }

theorem addLock_eq (ns : Namespace) (req : LockRequest) : (ns.addLock req).2 =
    (ns.findOrCreate req.key).2.enroll req (ns.findOrCreate req.key).1 := rfl

/-- A lock has been made and granted on a resource of its own. -/
def grantedAlone (ns : Namespace) (req : LockRequest) : Namespace :=
  { ns.enroll req ns.resources.size with
    locks := ns.locks.alloc
      ((((Lock.create (ns.claimFor req) req.mode ns.resources.size req.key
        ns.config.historyDepth).enter .enqueued).enter .granted).hold req.mode)
    resources := ns.resources.alloc
      { key := req.key, refs := 1, queues := { granted := [⟨ns.claimFor req, req.mode⟩] } }
    index := ns.index.insert req.key ns.resources.size }

theorem resource_addLock (ns : Namespace) (req : LockRequest) :
    ((ns.addLock req).2.lock ns.locks.size).resource = (ns.findOrCreate req.key).1 := by
  rw [lock_addLock, if_pos rfl]
  rfl

/-- It comes about at once. -/
theorem submit_of_unknown (ns : Namespace) (running : ns.stopping = false)
    (unknown : ns.index.get? req.key = none) :
    (ns.addLock req).2.submit ns.locks.size ((ns.addLock req).2.lock ns.locks.size).resource =
      .ok ((ns.grantedAlone req).reply ns.locks.size, ns.grantedAlone req) := by
  rw [resource_addLock, findOrCreate_of_unknown unknown]
  have made : (ns.addLock req).2 =
      { ns.enroll req ns.resources.size with
        resources := ns.resources.alloc { key := req.key, refs := 1 }
        index := ns.index.insert req.key ns.resources.size } := by
    rw [addLock_eq, findOrCreate_of_unknown unknown]
    rfl
  generalize (ns.addLock req).2 = ns₁ at made ⊢
  let new := Lock.create (ns.claimFor req) req.mode ns.resources.size req.key ns.config.historyDepth
  have lock : ns₁.lock ns.locks.size = new := made ▸ ns.locks.get_alloc_size new
  have resource : ns₁.resource ns.resources.size = { key := req.key, refs := 1 } :=
    made ▸ ns.resources.get_alloc_size _
  let a : Arbiter :=
    { config := ns.config, now := ns.clock, queues := {}, locks := ns.locks.alloc (new.enter .enqueued) }
  have entered : (ns₁.arbiter ns.resources.size).modifyLock ns.locks.size
      (fun _ => (ns₁.lock ns.locks.size).enter .enqueued) = a := by
    unfold arbiter
    rw [lock, resource, made]
    exact congrArg (fun locks => { a with locks }) (ns.locks.modify_alloc new _)
  have self : a.lock ns.locks.size = new.enter .enqueued := ns.locks.get_alloc_size _
  have received : a.receive new.claim req.mode =
      { a with
        locks := ns.locks.alloc (((new.enter .enqueued).enter .granted).hold req.mode)
        queues := { granted := [⟨new.claim, req.mode⟩] } } := by
    have state : (a.lock new.claim.id).state = .enqueued := congrArg Lock.state self
    rw [Arbiter.receive_of_empty rfl state, show a.lock new.claim.id = _ from self]
    exact congrArg (Arbiter.mk ns.config ns.clock { granted := [⟨new.claim, req.mode⟩] } · [])
      (ns.locks.modify_alloc (new.enter .enqueued) _)
  have concluded : ns₁.conclude ns.resources.size (a.receive new.claim req.mode) =
      ns.grantedAlone req := by
    rw [received, made]
    unfold conclude grantedAlone
    simp only [Arena.modify_alloc]
    rfl
  rw [submit_of_new (congrArg Lock.state lock) (made ▸ running) ns.resources.size entered, lock]
  exact congrArg (fun ns' : Namespace => Except.ok (ns'.reply ns.locks.size, ns')) concluded

/-- Where the record of a resource goes if one more has been made after the first `size`. -/
def shifted (size r : Nat) : Nat := if r < size then r else r + 1

theorem shifted_of_lt {size r : Nat} (old : r < size) : shifted size r = r := if_pos old

theorem shifted_self (size : Nat) : shifted size size = size + 1 := if_neg (Nat.lt_irrefl size)

theorem shifted_le (size r : Nat) : shifted size r ≤ r + 1 := by
  unfold shifted
  split <;> omega

theorem shifted_injective {size r q : Nat} (same : shifted size r = shifted size q) : r = q := by
  unfold shifted at same
  split at same <;> split at same <;> omega

/-- Whoever is left out is the one made besides. -/
theorem eq_of_forall_shifted_ne {size q : Nat} (known : q < size + 2)
    (other : ∀ r, r < size + 1 → shifted size r ≠ q) : q = size := by
  rcases Nat.lt_trichotomy q size with old | same | new
  · exact absurd (shifted_of_lt old) (other q (Nat.lt_succ_of_lt old))
  · exact same
  · obtain rfl : q = size + 1 := by omega
    exact absurd (shifted_self size) (other size (Nat.lt_succ_self size))

theorem size_grantedAlone (ns : Namespace) (req : LockRequest) :
    (ns.grantedAlone req).resources.size = ns.resources.size + 1 := Arena.size_alloc ..

theorem resource_grantedAlone (ns : Namespace) (req : LockRequest) (r : ResourceId) :
    (ns.grantedAlone req).resource r =
      if r = ns.resources.size then
        { key := req.key, refs := 1, queues := { granted := [⟨ns.claimFor req, req.mode⟩] } }
      else ns.resource r := Arena.get_alloc ..

/-- The new lock is bound to another record, and the others are what they were. -/
theorem lock_grantedAlone_withSpare (sound : ns.Sound) (k : Key) (req : LockRequest) {l : LockId}
    (known : l < ns.locks.size + 1) : ((ns.withSpare k).grantedAlone req).lock l =
      { (ns.grantedAlone req).lock l with
        resource := shifted ns.resources.size ((ns.grantedAlone req).lock l).resource } := by
  rcases Nat.lt_succ_iff_lt_or_eq.mp known with old | rfl
  · have other : l ≠ ns.locks.size := Nat.ne_of_lt old
    have kept : (ns.grantedAlone req).lock l = ns.lock l := (Arena.get_alloc ..).trans (if_neg other)
    have kept' : ((ns.withSpare k).grantedAlone req).lock l = ns.lock l :=
      (Arena.get_alloc ..).trans (if_neg other)
    rw [kept, kept', shifted_of_lt (sound.placed l old)]
  · have made : (ns.grantedAlone req).lock ns.locks.size = _ := ns.locks.get_alloc_size _
    have made' : ((ns.withSpare k).grantedAlone req).lock ns.locks.size = _ :=
      ns.locks.get_alloc_size _
    rw [made, made', size_withSpare]
    exact congrArg (fun r => (((Lock.create (ns.claimFor req) req.mode r req.key
      ns.config.historyDepth).enter .enqueued).enter .granted).hold req.mode) (shifted_self _).symm

theorem index_grantedAlone_withSpare (sound : ns.Sound) (distinct : ns.index.Distinct) (k : Key)
    (req : LockRequest) : ((ns.withSpare k).grantedAlone req).index.entries =
      (ns.grantedAlone req).index.entries.map fun e => (e.1, shifted ns.resources.size e.2) := by
  have kept : (ns.index.erase req.key).entries.map
      (fun e => (e.1, shifted ns.resources.size e.2)) = (ns.index.erase req.key).entries := by
    refine (List.map_congr_left fun e inside => ?_).trans (List.map_id _)
    have old := sound.lt_of_mem_index distinct (List.mem_of_mem_filter inside)
    rw [shifted_of_lt old]
    rfl
  have first : (req.key, (ns.withSpare k).resources.size) =
      (req.key, shifted ns.resources.size ns.resources.size) := by rw [size_withSpare, shifted_self]
  exact congrArg₂ List.cons first kept.symm

/-- Only the record differs that the request's resource has. -/
theorem renumbers_grantedAlone (sound : ns.Sound) (distinct : ns.index.Distinct) (k : Key)
    (req : LockRequest) : Renumbers (shifted ns.resources.size) (ns.grantedAlone req)
      ((ns.withSpare k).grantedAlone req) where
  config := rfl
  clock := rfl
  stopping := rfl
  handles := rfl
  replays := rfl
  dispatcher := rfl
  size := (Arena.size_alloc ..).trans (Arena.size_alloc ..).symm
  lock l known :=
    lock_grantedAlone_withSpare sound k req (Nat.lt_of_lt_of_eq known (Arena.size_alloc ..))
  index := index_grantedAlone_withSpare sound distinct k req
  known r known := by
    rw [size_grantedAlone] at known
    rw [size_grantedAlone, size_withSpare]
    exact Nat.lt_of_le_of_lt (shifted_le ..) (Nat.succ_lt_succ known)
  resource r known := by
    rw [size_grantedAlone] at known
    rw [resource_grantedAlone, resource_grantedAlone, size_withSpare]
    rcases Nat.lt_succ_iff_lt_or_eq.mp known with old | rfl
    · rw [shifted_of_lt old, if_neg (Nat.ne_of_lt (Nat.lt_succ_of_lt old)),
        if_neg (Nat.ne_of_lt old), resource_withSpare k old]
    · rw [shifted_self, if_pos rfl, if_pos rfl]
      rfl
  injective _ _ _ _ same := shifted_injective same
  spare q known other := by
    rw [size_grantedAlone, size_withSpare] at known
    rw [size_grantedAlone] at other
    obtain rfl := eq_of_forall_shifted_ne known other
    rw [resource_grantedAlone, size_withSpare, if_neg (Nat.ne_of_lt (Nat.lt_succ_self _)),
      resource_withSpare_self]
    exact ⟨rfl, rfl⟩

/-! ### A new lock -/

theorem submit_withSpare (k : Key) {l : LockId} {r : ResourceId} (known : r < ns.resources.size)
    (new : (ns.lock l).state = .new) (running : ns.stopping = false) {reply : Reply}
    (done : ns.submit l r = .ok (reply, ns')) :
    (ns.withSpare k).submit l r = .ok (reply, ns'.withSpare k) := by
  have same : (ns.withSpare k).arbiter r = ns.arbiter r := by
    unfold arbiter
    rw [resource_withSpare k known]
    rfl
  have new' : ((ns.withSpare k).lock l).state = .new := new
  rw [submit_of_new new running r rfl] at done
  rw [submit_of_new new' running r rfl, same, conclude_withSpare k known]
  cases done
  rfl

/-- A resource that has been made and given up makes no difference to whoever comes after that. -/
theorem Untouched.renumbers_submit {ns₀ : Namespace} (untouched : ns.Untouched ns₀)
    (sound : ns.Sound) (distinct : ns.index.Distinct) (running : ns.stopping = false)
    (req : LockRequest) :
    ∃ f reply t t₀,
      (ns.addLock req).2.submit ns.locks.size ((ns.addLock req).2.lock ns.locks.size).resource =
          .ok (reply, t) ∧
        (ns₀.addLock req).2.submit ns.locks.size
            ((ns₀.addLock req).2.lock ns.locks.size).resource = .ok (reply, t₀) ∧
        Renumbers f t t₀ := by
  obtain ⟨t, done⟩ := submit_addLock running req
  cases untouched with
  | same => exact ⟨id, _, t, t, done, done, .refl t⟩
  | spare k _ =>
    -- a resource that is there keeps its record, and one that has to be made gets the next
    cases there : ns.index.get? req.key with
    | none =>
      have renumbers := renumbers_grantedAlone sound distinct k req
      have made := submit_of_unknown (ns.withSpare k) running there
      have known : ns.locks.size < (ns.grantedAlone req).locks.size :=
        Nat.lt_of_lt_of_eq (Nat.lt_succ_self _) (Arena.size_alloc ..).symm
      rw [show (ns.withSpare k).locks.size = ns.locks.size from rfl, renumbers.reply known] at made
      exact ⟨_, _, _, _, submit_of_unknown ns running there, made, renumbers⟩
    | some r =>
      have known := sound.indexed req.key r there
      have bound : ((ns.addLock req).2.lock ns.locks.size).resource = r := by
        rw [resource_addLock, findOrCreate_of_known there]
      have inside : r < (ns.addLock req).2.resources.size :=
        Nat.lt_of_lt_of_le known (ns.alike_findOrCreate req.key).grown
      have new : ((ns.addLock req).2.lock ns.locks.size).state = .new := by
        rw [lock_addLock, if_pos rfl]
        rfl
      have still := (ns.steady_addLock req).stopping.trans running
      refine ⟨id, _, t, t.withSpare k, done, ?_, renumbers_withSpare t k⟩
      rw [show ({ ns with resources := ns.resources.alloc { key := k } } : Namespace) =
        ns.withSpare k from rfl, addLock_withSpare k there known]
      rw [bound] at done
      exact bound ▸ submit_withSpare k inside new still done

end Namespace
end LockManager
