import LockManager.Proofs.Namespace.Departing
import LockManager.Proofs.Namespace.Operations
import LockManager.Proofs.Task.Opening

set_option autoImplicit false

/-!
What a stage leaves alone. The decision that it takes, if any, is about one resource: the others and the
locks bound to them are as they were, messages and all.
-/

namespace LockManager

open Arbiter (Avoids)

variable {k l : LockId} {r q : ResourceId}

theorem Arbiter.Avoids.glimpse {a : Arbiter} (none : a.queues.of k = {}) (requester : Owner) :
    Avoids k a (a.glimpse requester).1 := by
  unfold Arbiter.glimpse
  have others : ∀ e ∈ a.queues.granted.filter fun e => e.mode.writes && e.claim.owner != requester,
      k ≠ e.claim.id := fun e chosen => ne_of_granted none (List.mem_of_mem_filter chosen)
  generalize a.queues.granted.filter _ = holders at others ⊢
  generalize 0 = n
  clear none
  induction holders generalizing a n with
  | nil => exact .refl k a
  | cons e rest ih =>
    have later := fun x inside => others x (List.mem_cons_of_mem e inside)
    rw [List.foldl_cons]
    dsimp only
    split
    · exact ih later n
    · exact (notify a _ (others e List.mem_cons_self)).trans (ih later _)

namespace Namespace

variable {ns ns' ns'' : Namespace}

/-! ### Decisions -/

/-- The dispatcher is not told of a lock that it has, nor of one that has no messages. -/
theorem lock_schedule_of_attended (attended : (ns.lock k).pending ≠ [] → (ns.lock k).scheduled = true)
    (l : LockId) : (ns.schedule l).lock k = ns.lock k := by
  unfold schedule
  dsimp only
  split
  · rfl
  · next work =>
    simp only [Bool.or_eq_true, not_or, Bool.not_eq_true] at work
    have other : l ≠ k := by
      rintro rfl
      rw [attended (List.isEmpty_eq_false_iff.mp work.2)] at work
      cases work.1
    split
    · exact (ns.lock_modifyLock _ l k).trans (if_neg fun both => other both.1)
    · exact (ns.lock_modifyLock _ l k).trans (if_neg fun both => other both.1)

theorem lock_dispatch_of_attended (attended : (ns.lock k).pending ≠ [] → (ns.lock k).scheduled = true)
    (touched : List LockId) : (ns.dispatch touched).lock k = ns.lock k := by
  unfold dispatch
  induction touched generalizing ns with
  | nil => rfl
  | cons l touched ih =>
    have same := lock_schedule_of_attended attended l
    exact (ih (same.symm ▸ attended)).trans same

/-- Whoever has been left alone by a decision is as before when it is taken over. -/
theorem lock_conclude_of_avoids (delivering : ns.mail.Delivering [] []) {a : Arbiter}
    (avoids : Avoids k (ns.arbiter r) a) : (ns.conclude r a).lock k = ns.lock k := by
  have same : a.locks.get k = ns.lock k := avoids.lock
  refine (lock_dispatch_of_attended ?_ a.touched).trans same
  unfold lock
  dsimp only
  rw [same]
  exact fun some => (delivering.attended k some).resolve_right List.not_mem_nil

theorem resources_dispatch (ns : Namespace) (touched : List LockId) :
    (ns.dispatch touched).resources = ns.resources := by
  have each (ns : Namespace) (l : LockId) : (ns.schedule l).resources = ns.resources := by
    unfold schedule
    dsimp only
    split
    · rfl
    · split <;> rfl
  unfold dispatch
  induction touched generalizing ns with
  | nil => rfl
  | cons l touched ih => exact (ih _).trans (each ns l)

theorem resources_conclude (ns : Namespace) (r : ResourceId) (a : Arbiter) :
    (ns.conclude r a).resources = ns.resources.modify r ({ · with queues := a.queues }) :=
  resources_dispatch _ a.touched

theorem resources_dropReplay (ns : Namespace) (claim : Claim) :
    (ns.dropReplay claim).resources = ns.resources := by
  unfold dropReplay
  split
  · split <;> rfl
  · rfl

/-! ### What lies elsewhere -/

/-- Resources other than `r` and the locks bound to them are as they were, and no other resource has come
into the index or gone. -/
structure Elsewhere (r : ResourceId) (ns ns' : Namespace) : Prop where
  locks : ns.locks.size ≤ ns'.locks.size
  resources : ns.resources.size ≤ ns'.resources.size
  key : r < ns.resources.size → (ns'.resource r).key = (ns.resource r).key
  index : ∀ j, j ≠ (ns'.resource r).key → ns'.index.get? j = ns.index.get? j
  resource : ∀ q, q < ns.resources.size → q ≠ r → ns'.resource q = ns.resource q
  bound : ∀ l, l < ns.locks.size → (ns'.lock l).resource = (ns.lock l).resource
  lock : ∀ l, l < ns.locks.size → (ns.lock l).resource ≠ r → ns'.lock l = ns.lock l

namespace Elsewhere

theorem refl (r : ResourceId) (ns : Namespace) : Elsewhere r ns ns :=
  ⟨Nat.le_refl _, Nat.le_refl _, fun _ => rfl, fun _ _ => rfl, fun _ _ _ => rfl, fun _ _ => rfl,
    fun _ _ _ => rfl⟩

theorem trans (first : Elsewhere r ns ns') (second : Elsewhere r ns' ns'')
    (held : r < ns'.resources.size) : Elsewhere r ns ns'' := by
  have name := second.key held
  refine ⟨first.locks.trans second.locks, first.resources.trans second.resources, fun known => ?_,
    fun j other => ?_, fun q known other => ?_, fun l known => ?_, fun l known other => ?_⟩
  · exact name.trans (first.key known)
  · exact (second.index j other).trans (first.index j (name ▸ other))
  · exact (second.resource q (known.trans_le first.resources) other).trans
      (first.resource q known other)
  · exact (second.bound l (known.trans_le first.locks)).trans (first.bound l known)
  · have still := first.bound l known
    exact (second.lock l (known.trans_le first.locks) (still.symm ▸ other)).trans
      (first.lock l known other)

/-- Only locks have changed, and no lock has moved. -/
theorem of_locks (resources : ns'.resources = ns.resources) (index : ns'.index = ns.index)
    (size : ns'.locks.size = ns.locks.size)
    (bound : ∀ l, (ns'.lock l).resource = (ns.lock l).resource)
    (lock : ∀ l, l < ns.locks.size → (ns.lock l).resource ≠ r → ns'.lock l = ns.lock l) :
    Elsewhere r ns ns' := by
  refine ⟨size.ge, Nat.le_of_eq (by rw [resources]), fun _ => ?_, fun j _ => by rw [index],
    fun q _ _ => ?_, fun l _ => bound l, lock⟩ <;>
  · rw [Namespace.resource, resources]
    rfl

/-- One lock that is bound to `r` has changed. -/
theorem modifyLock (here : (ns.lock l).resource = r) {f : Lock → Lock}
    (still : (f (ns.lock l)).resource = (ns.lock l).resource) :
    Elsewhere r ns (ns.modifyLock l f) := by
  refine .of_locks rfl rfl (Arena.size_modify ..) (fun k => ?_) fun k known other => ?_
  · rw [lock_modifyLock]
    split
    · next same => exact same.1 ▸ still
    · rfl
  · rw [lock_modifyLock, if_neg]
    rintro ⟨rfl, -⟩
    exact other here

/-- Only `r` has changed, and if the index has changed it has lost `r`. -/
theorem of_roster (same : ns'.roster = ns.roster) (size : ns'.resources.size = ns.resources.size)
    (key : (ns'.resource r).key = (ns.resource r).key)
    (index : ∀ j, j ≠ (ns.resource r).key → ns'.index.get? j = ns.index.get? j)
    (resource : ∀ q, q ≠ r → ns'.resource q = ns.resource q) : Elsewhere r ns ns' := by
  have lock := lock_of_roster same
  have locks : ns'.locks.size = ns.locks.size := (congrArg (·.locks.size) same :)
  exact ⟨locks.ge, size.ge, fun _ => key, fun j other => index j (key ▸ other),
    fun q _ => resource q, fun l _ => by rw [lock], fun l _ _ => lock l⟩

theorem modifyResource (ns : Namespace) (r : ResourceId) {f : Resource → Resource}
    (key : ∀ x, (f x).key = x.key) : Elsewhere r ns (ns.modifyResource r f) := by
  refine .of_roster rfl (Arena.size_modify ..) ?_ (fun _ _ => rfl) fun q other => ?_
  · rw [Namespace.resource, Namespace.modifyResource, Arena.get_modify]
    split
    · exact key _
    · rfl
  · exact Arena.get_modify_of_ne _ _ (Ne.symm other)

theorem reclaim (ns : Namespace) (r : ResourceId) : Elsewhere r ns (ns.reclaim r) := by
  unfold Namespace.reclaim
  dsimp only
  split
  · refine .of_roster rfl rfl rfl (fun j other => ?_) fun _ _ => rfl
    exact (Index.get?_erase ..).trans (if_neg other)
  · exact .refl r ns

/-- A decision on `r` is taken over, in which the locks bound elsewhere were left alone. -/
theorem conclude (delivering : ns.mail.Delivering [] []) (sound : ns.Sound) {a : Arbiter}
    (size : (ns.conclude r a).locks.size = ns.locks.size)
    (bound : ∀ l, ((ns.conclude r a).lock l).resource = (ns.lock l).resource)
    (avoids : ∀ k, (ns.lock k).resource ≠ r → (ns.resource r).queues.of k = {} →
      Avoids k (ns.arbiter r) a) : Elsewhere r ns (ns.conclude r a) := by
  have catalog := catalog_of_books (ns.books_conclude r a)
  have index : (ns.conclude r a).index = ns.index := congrArg Catalog.index catalog
  have resources := ns.resources_conclude r a
  refine ⟨?_, ?_, fun _ => ?_, fun j _ => by rw [index], fun q _ other => ?_, fun l _ => bound l,
    fun l known other => ?_⟩
  · exact size.ge
  · rw [resources, Arena.size_modify]
  · exact congrFun (congrArg Catalog.key catalog) r
  · rw [Namespace.resource, resources]
    exact Arena.get_modify_of_ne _ _ (Ne.symm other)
  · have none := sound.ledger.coherent.elsewhere l known r (Ne.symm other)
    exact lock_conclude_of_avoids delivering (avoids l other none)

end Elsewhere

/-! ### Stages -/

theorem Onward.bound (onward : Onward ns ns') (k : LockId) :
    (ns'.lock k).resource = (ns.lock k).resource :=
  (onward.keeps.lock k).resource

section

variable (sound : ns.Sound) (delivering : ns.mail.Delivering [] []) (known : l < ns.locks.size)
  (bound : (ns.lock l).resource = r)

include sound delivering known bound

theorem elsewhere_submit {reply : Reply} (done : ns.submit l r = .ok (reply, ns')) :
    Elsewhere r ns ns' := by
  have onward := sound.submit known bound done
  rcases submit_ok done with rfl | ⟨-, rfl⟩
  · exact .refl r ns'
  · refine .conclude delivering sound onward.keeps.size onward.bound
      fun k apart none => ?_
    obtain ⟨other, here⟩ := sound.ne_of_apart known bound apart
    exact avoids_entering other here none _ _

theorem elsewhere_changeMode {mode : Mode} {status : ConvertStatus}
    (done : ns.changeMode l mode r = .ok (status, ns')) : Elsewhere r ns ns' := by
  have onward := sound.changeMode known bound done
  rcases changeMode_ok done with rfl | ⟨-, ⟨-, rfl⟩ | ⟨-, a, converted, rfl⟩⟩
  · exact .refl r ns'
  · refine .conclude delivering sound onward.keeps.size onward.bound
      fun k apart none => ?_
    obtain ⟨other, here⟩ := sound.ne_of_apart known bound apart
    exact avoids_pending other here none mode
  · refine .conclude delivering sound onward.keeps.size onward.bound
      fun k apart none => ?_
    obtain ⟨other, here⟩ := sound.ne_of_apart known bound apart
    exact avoids_switching other here none converted

theorem elsewhere_leave (canceling : (ns.lock l).state = .canceling) :
    Elsewhere r ns (ns.leave l r) := by
  obtain ⟨b, left⟩ := sound.leave known bound canceling
  have effect := Effect.of_left left canceling
  rw [leave_eq] at effect ⊢
  generalize decided : ns.conclude r (ns.departing l r).reprocess = ns₁ at effect ⊢
  have still (k : LockId) : ((ns₁.retire l).lock k).resource = (ns₁.lock k).resource := by
    rw [lock_retire]
    split <;> rfl
  have elsewhere : Elsewhere r ns ns₁ := by
    subst decided
    refine .conclude delivering sound ?_ (fun k => ?_) fun k apart none => ?_
    · exact (size_retire _ l).symm.trans effect.size
    · exact (still k).symm.trans (effect.bound k (fun target => by simp))
    · exact avoids_departing (fun here => apart (here ▸ bound)) none
  have held : r < ns.resources.size := bound ▸ sound.placed l known
  have catalog := ns₁.catalog_dropReplay (ns₁.lock l).claim
  refine elsewhere.trans (.of_locks ?_ ?_ (size_retire _ l) still fun k known apart => ?_)
    (held.trans_le elsewhere.resources)
  · exact ns₁.resources_dropReplay (ns₁.lock l).claim
  · exact congrArg Catalog.index catalog
  · rw [lock_retire, if_neg]
    rintro ⟨rfl, -⟩
    exact apart ((elsewhere.bound l ‹_›).trans bound)

end

theorem elsewhere_ask (sound : ns.Sound) (delivering : ns.mail.Delivering [] [])
    (held : r < ns.resources.size) (requester : Owner) :
    Elsewhere r ns (ns.ask r requester).2 := by
  have onward := sound.ask held requester
  exact .conclude delivering sound onward.keeps.size onward.bound
    fun k _ none => .glimpse none requester

theorem elsewhere_findOrCreate (ns : Namespace) (j : Key) :
    Elsewhere (ns.findOrCreate j).1 ns (ns.findOrCreate j).2 := by
  unfold findOrCreate
  cases there : ns.index.get? j with
  | some q => exact .modifyResource ns q fun _ => rfl
  | none =>
    have new : (ns.resources.alloc { key := j, refs := 1 }).get ns.resources.size =
        { key := j, refs := 1 } := Arena.get_alloc_size ..
    refine ⟨Nat.le_refl _, ?_, fun known => absurd known (Nat.lt_irrefl _), fun i other => ?_,
      fun q known _ => ?_, fun _ _ => rfl, fun _ _ _ => rfl⟩
    · exact Nat.le_of_lt (Arena.size_alloc .. ▸ Nat.lt_succ_self _)
    · simp only [resource, new] at other
      exact (Index.get?_insert ..).trans (if_neg other)
    · exact (Arena.get_alloc ..).trans (if_neg (Nat.ne_of_lt known))

/-- A new lock concerns nobody but the resource that it is bound to. -/
theorem elsewhere_addLock (ns : Namespace) (req : LockRequest) :
    Elsewhere (ns.findOrCreate req.key).1 ns (ns.addLock req).2 := by
  have found := ns.elsewhere_findOrCreate req.key
  have same {l : LockId} (known : l < ns.locks.size) := ns.lock_addLock_of_lt known req
  refine ⟨?_, found.resources, found.key, found.index, found.resource, fun l known => ?_,
    fun l known _ => same known⟩
  · exact Nat.le_of_lt (ns.size_addLock req ▸ Nat.lt_succ_self _)
  · rw [same known]

end Namespace

open Namespace (Elsewhere)

/-- The stage is about `r` and the locks bound to it, or it concerns no resource and no lock at all. -/
def Stage.About (ns : Namespace) (r : ResourceId) : Stage → Prop
  | .submit l _ | .changeMode l _ | .mark l _ | .leave l => (ns.lock l).resource = r
  | .ask q _ | .reclaim q => q = r
  | .awaitRetired _ | .forget _ | .look .. | .lookAround _ | .hold .. => True
  | .move .. | .close => False

theorem Stage.About.mono {ns ns' : Namespace} {stage : Stage} (about : stage.About ns r)
    (elsewhere : Elsewhere r ns ns') (fits : stage.Fits ns) : stage.About ns' r := by
  cases stage with
  | submit l _ | changeMode l _ | mark l _ | leave l => exact (elsewhere.bound l fits).trans about
  | _ => exact about

theorem Stage.Ready.elsewhere {ns : Namespace} {stage : Stage} {q : ResourceId}
    (ready : stage.Ready ns q) (sound : ns.Sound) (delivering : ns.mail.Delivering [] [])
    (held : r < ns.resources.size) (about : stage.About ns r) :
    Elsewhere r ns (stage.carryOut ns q).space := by
  have releasing {ns' : Namespace} (done : Elsewhere r ns ns') (outcome : Option Outcome) :
      Elsewhere r ns (Progress.releasing ns' r outcome).space :=
    done.trans (.modifyResource ns' r fun _ => rfl) (held.trans_le done.resources)
  obtain ⟨fits, bound, going⟩ := ready
  cases stage with
  | submit l discard =>
    obtain rfl : q = r := (bound l _ rfl).symm.trans about
    simp only [carryOut]
    split
    · next done => exact ns.elsewhere_submit sound delivering fits about done
    · cases discard with
      | true => exact .modifyLock about rfl
      | false => exact .refl q ns
  | changeMode l mode =>
    obtain rfl : q = r := (bound l _ rfl).symm.trans about
    simp only [carryOut]
    split
    · next done => exact ns.elsewhere_changeMode sound delivering fits about done
    · exact .refl q ns
  | mark l join =>
    simp only [carryOut]
    split
    · next marked =>
      obtain ⟨-, rfl⟩ := Namespace.mark?_eq marked
      exact .modifyLock about rfl
    · exact .refl r ns
  | leave l =>
    obtain rfl : q = r := (bound l _ rfl).symm.trans about
    exact releasing (ns.elsewhere_leave sound delivering fits about (going l rfl)) none
  | ask p requester =>
    obtain rfl : p = r := about
    exact releasing (ns.elsewhere_ask sound delivering fits requester) _
  | reclaim p =>
    obtain rfl : p = r := about
    exact .reclaim ns p
  | move l target => exact about.elim
  | close => exact about.elim
  | look p others seen => cases others <;> exact .refl r ns
  | _ => exact .of_locks rfl rfl rfl (fun _ => rfl) fun _ _ _ => rfl

/-- What is left to do is about the same resource. -/
theorem Stage.Ready.about_next {ns : Namespace} {stage : Stage} {q : ResourceId}
    (ready : stage.Ready ns q) (about : stage.About ns r)
    (elsewhere : Elsewhere r ns (stage.carryOut ns q).space) :
    ∀ next ∈ (stage.carryOut ns q).next, next.About (stage.carryOut ns q).space r := by
  intro next inside
  cases yields_of_mem_next inside with
  | mark l | leave l _ => exact (elsewhere.bound l ready.fits).trans about
  | left l => exact (ready.bound l _ rfl).symm.trans about
  | asked _ _ => exact about
  | moved _ _ => exact about.elim
  | join _ | look _ _ _ _ => trivial

end LockManager
