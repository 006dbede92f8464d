import LockManager.Proofs.Arbiter.Asked
import LockManager.Proofs.Namespace.Departing
import LockManager.Proofs.Task.Opening

set_option autoImplicit false

/-!
What each stage of an operation means for those who stand in the way of others. Most stages decide
nothing: they leave the queues as they are, and whoever had been asked to give way still has.
-/

namespace LockManager
namespace Namespace

/-- The queues are as they were, and whoever was on its way out or had been asked to give way is so
still. -/
structure Undecided (ns ns' : Namespace) : Prop where
  locks : ∀ k, (ns.lock k).Heeds (ns'.lock k)
  queues : ∀ r, (ns'.resource r).queues = (ns.resource r).queues

/-- What a change means for everyone who wants something on a resource and for those in the way. -/
def Minding (ns ns' : Namespace) : Prop :=
  ∀ r w g, (ns'.resource r).queues.Wants w → g ∈ (ns'.resource r).queues.granted →
    g.opposes w.claim w.mode = true →
      Minds ns.lock ns'.lock (ns.resource r).queues (ns'.resource r).queues w g

variable {ns ns' ns'' : Namespace} {l : LockId} {r : ResourceId}

namespace Undecided

theorem refl (ns : Namespace) : Undecided ns ns := ⟨fun _ => .refl _, fun _ => rfl⟩

theorem trans (first : Undecided ns ns') (second : Undecided ns' ns'') : Undecided ns ns'' :=
  ⟨fun k => (first.locks k).trans (second.locks k),
    fun r => (second.queues r).trans (first.queues r)⟩

theorem of_alike (same : Alike ns ns') (locks : ∀ k, (ns.lock k).Heeds (ns'.lock k)) :
    Undecided ns ns' :=
  ⟨locks, same.queues⟩

theorem of_roster (same : Alike ns ns') (roster : ns'.roster = ns.roster) : Undecided ns ns' :=
  of_alike same fun k => lock_of_roster roster k ▸ .refl _

theorem of_same (locks : ns'.locks = ns.locks) (resources : ns'.resources = ns.resources) :
    Undecided ns ns' := by
  refine ⟨fun k => ?_, fun r => ?_⟩
  · rw [lock, lock, locks]
    exact .refl _
  · rw [resource, resource, resources]

theorem foldl {β : Type} {f : Namespace → β → Namespace} (each : ∀ ns x, Undecided ns (f ns x))
    (xs : List β) (ns : Namespace) : Undecided ns (xs.foldl f ns) := by
  induction xs generalizing ns with
  | nil => exact .refl ns
  | cons x xs ih => exact (each ns x).trans (ih _)

theorem modifyLock (ns : Namespace) (l : LockId) {f : Lock → Lock}
    (each : (ns.lock l).Heeds (f (ns.lock l))) : Undecided ns (ns.modifyLock l f) := by
  refine ⟨fun k => ?_, fun _ => rfl⟩
  rw [lock_modifyLock]
  split
  · next here => exact here.1 ▸ each
  · exact .refl _

theorem minding (undecided : Undecided ns ns') : Minding ns ns' := by
  intro r w g wants holds _
  rw [undecided.queues] at wants holds ⊢
  exact .before wants holds (Heeded.mono (undecided.locks _) (undecided.locks _)) fun _ => id

end Undecided

theorem Minding.after (minding : Minding ns ns') (undecided : Undecided ns' ns'') :
    Minding ns ns'' := by
  intro r w g wants holds against
  have heeds : Heeded ns'.lock w g → Heeded ns''.lock w g :=
    Heeded.mono (undecided.locks _) (undecided.locks _)
  rw [undecided.queues] at wants holds ⊢
  exact (minding r w g wants holds against).after heeds

/-! ### Stages that decide nothing -/

theorem undecided_silence (ns : Namespace) (ls : List LockId) : Undecided ns (ns.silence ls) :=
  Undecided.foldl (fun ns l => .modifyLock ns l ⟨id, fun _ => .inr (.inl rfl)⟩) ls ns

theorem undecided_modifyDispatcher (ns : Namespace) (f : Dispatcher → Dispatcher) :
    Undecided ns (ns.modifyDispatcher f) :=
  .of_same rfl rfl

theorem undecided_drain (ns : Namespace) (l : LockId) : Undecided ns (ns.drain l) := by
  refine .of_alike (ns.alike_drain l) fun k => ?_
  have same (x : Lock) (pending : List Notification) (scheduled : Bool) :
      x.Heeds { x with pending, scheduled } := .of_same rfl rfl id
  rcases ns.drain_cases l with ⟨n, rest, -, -, after⟩ | ⟨-, after⟩ <;> rw [after]
  · exact (Undecided.modifyLock ns l (same _ rest _)).locks k
  · exact (Undecided.modifyLock ns l (same _ [] false)).locks k

theorem undecided_takeUp (taken : ns.takeUp? = some ns') : Undecided ns ns' := by
  obtain ⟨-, l, rest, -, rfl⟩ := takeUp?_eq taken
  exact (ns.undecided_modifyDispatcher _).trans (undecided_drain _ l)

theorem undecided_finish (ns : Namespace) (d : Delivery) : Undecided ns (ns.finish d) :=
  (ns.undecided_modifyDispatcher _).trans (undecided_drain _ d.lock)

theorem undecided_closeDispatcher (ns : Namespace) : Undecided ns ns.closeDispatcher := by
  have abandoned (ns : Namespace) (l : LockId) : Undecided ns (ns.abandon l) :=
    (Undecided.modifyLock ns l (f := ({ · with pending := [], scheduled := false }))
      (.of_same rfl rfl id)).trans (undecided_modifyDispatcher _ _)
  exact (Undecided.foldl abandoned ns.dispatcher.queue ns).trans (undecided_modifyDispatcher _ _)

theorem undecided_checkTimeouts (ns : Namespace) : Undecided ns ns.checkTimeouts.2 :=
  ns.checkTimeouts_induction (P := Undecided ns) (.refl ns) fun ns' l undecided =>
    undecided.trans (.modifyLock ns' l (.of_same rfl rfl id))

theorem undecided_mark (marked : ns.mark? l = some ns') : Undecided ns ns' := by
  obtain ⟨-, rfl⟩ := mark?_eq marked
  exact .modifyLock ns l ⟨fun _ => rfl, fun _ => .inr (.inr rfl)⟩

theorem undecided_move (ns : Namespace) (l : LockId) (target : ResourceId) :
    Undecided ns (ns.move l target).2.2 := by
  unfold move
  dsimp only
  split
  · exact .modifyLock ns l (.of_same rfl rfl id)
  · exact .refl ns

theorem undecided_addLock (ns : Namespace) (req : LockRequest) : Undecided ns (ns.addLock req).2 := by
  obtain ⟨x, added, -⟩ := ns.ledger_addLock req
  refine ⟨fun k => ?_, fun r => congrFun (congrArg Ledger.queues added) r⟩
  rw [lock_addLock]
  split
  · next last =>
    rw [last, lock_beyond (Nat.lt_irrefl _)]
    exact .of_same rfl rfl id
  · exact .refl _

/-! ### Decisions on one resource -/

theorem heeds_conclude (ns : Namespace) (r : ResourceId) (a : Arbiter) (k : LockId) :
    (a.lock k).Heeds ((ns.conclude r a).lock k) := by
  obtain ⟨scheduled, pending, same, -⟩ := ns.lock_conclude r a k
  rw [same]
  exact .of_same rfl rfl id

theorem undecided_ask (held : r < ns.resources.size) (requester : Owner) :
    Undecided ns (ns.ask r requester).2 := by
  have nags := (ns.arbiter r).nags_glimpse requester
  refine ⟨fun k => (nags.heeds k).trans (ns.heeds_conclude r _ k), fun q => ?_⟩
  by_cases same : q = r
  · rw [same]
    exact (queues_conclude held _).trans nags.queues
  · exact queues_conclude_of_ne same _

/-- Taking over what was decided on a resource, where those bound to others were left alone. -/
theorem minding_conclude (sound : ns.Sound) (held : r < ns.resources.size) {a : Arbiter}
    (avoids : ∀ k, (ns.lock k).resource ≠ r → (ns.arbiter r).queues.of k = {} →
      Arbiter.Avoids k (ns.arbiter r) a)
    (decided : ∀ w g, a.queues.Wants w → g ∈ a.queues.granted → g.opposes w.claim w.mode = true →
      Minds ns.lock a.lock (ns.resource r).queues a.queues w g) :
    Minding ns (ns.conclude r a) := by
  intro q w g wants holds against
  by_cases same : q = r
  · rw [same, queues_conclude held] at wants holds ⊢
    have heeds : Heeded a.lock w g → Heeded (ns.conclude r a).lock w g :=
      Heeded.mono (ns.heeds_conclude r a _) (ns.heeds_conclude r a _)
    exact (decided w g wants holds against).after heeds
  · rw [queues_conclude_of_ne same] at wants holds ⊢
    have apart {e : Entry} (inside : e ∈ (ns.resource q).queues.entries) :
        (ns.lock e.claim.id).Heeds ((ns.conclude r a).lock e.claim.id) := by
      obtain ⟨alive, bound⟩ := sound.alive_of_mem inside
      have elsewhere : (ns.lock e.claim.id).resource ≠ r := bound ▸ same
      have none := sound.ledger.coherent.elsewhere e.claim.id alive.1 r (Ne.symm elsewhere)
      have left : a.lock e.claim.id = ns.lock e.claim.id := (avoids _ elsewhere none).lock
      exact left ▸ ns.heeds_conclude r a e.claim.id
    have wanted : w ∈ (ns.resource q).queues.entries :=
      Queues.mem_entries.mpr (wants.imp .inr id)
    have placed : g ∈ (ns.resource q).queues.entries := Queues.mem_entries.mpr (.inl (.inl holds))
    exact .before wants holds (Heeded.mono (apart wanted) (apart placed)) fun _ => id

theorem Sound.known_granted (sound : ns.Sound) (r : ResourceId) :
    ∀ g ∈ (ns.resource r).queues.granted, g.claim.id < ns.locks.size :=
  fun _ inside => (sound.alive_of_mem (Queues.mem_entries.mpr (.inl (.inl inside)))).1.1

theorem Sound.minding_submit (sound : ns.Sound) (known : l < ns.locks.size)
    (bound : (ns.lock l).resource = r) {reply : Reply} (done : ns.submit l r = .ok (reply, ns')) :
    Minding ns ns' := by
  rcases submit_ok done with rfl | ⟨new, rfl⟩
  · exact (Undecided.refl ns').minding
  · have mine : (ns.lock l).claim.id = l := sound.ledger.coherent.named l known
    refine minding_conclude sound (bound ▸ sound.placed l known) (fun k elsewhere none => ?_)
      fun w g wants holds against => ?_
    · obtain ⟨other, here⟩ := sound.ne_of_apart known bound elsewhere
      exact avoids_entering other here none _ _
    · exact Arbiter.minds_receive (a := ns.arbiter r) new (sound.known_granted r) mine rfl wants holds against

theorem Sound.minding_changeMode (sound : ns.Sound) (sound' : ns'.Sound) (known : l < ns.locks.size)
    (bound : (ns.lock l).resource = r) {mode : Mode} {status : ConvertStatus}
    (done : ns.changeMode l mode r = .ok (status, ns')) : Minding ns ns' := by
  have held : r < ns.resources.size := bound ▸ sound.placed l known
  rcases changeMode_ok done with rfl | ⟨granted, ⟨-, rfl⟩ | ⟨-, a, converted, rfl⟩⟩
  · exact (Undecided.refl ns').minding
  · refine minding_conclude sound held (fun k elsewhere none => ?_)
      fun w g wants holds against => ?_
    · obtain ⟨other, here⟩ := sound.ne_of_apart known bound elsewhere
      exact avoids_pending other here none mode
    · exact Arbiter.minds_pend (a := ns.arbiter r) granted (sound.known_granted r) rfl wants holds against
  · refine minding_conclude sound held (fun k elsewhere none => ?_)
      fun w g wants holds against => ?_
    · obtain ⟨other, here⟩ := sound.ne_of_apart known bound elsewhere
      exact avoids_switching other here none converted
    · refine .heeded (a.heeded_reprocess wants holds ?_ against)
      rw [← ns.size_conclude r]
      exact sound'.known_granted r g (queues_conclude held _ ▸ holds)

theorem undecided_retire (ns : Namespace) (l : LockId) : Undecided ns (ns.retire l) := by
  refine ⟨fun k => ?_, ns.queues_retire l⟩
  rw [lock_retire]
  split
  · exact .of_same rfl rfl id
  · exact .refl _

theorem Sound.minding_leave (sound : ns.Sound) (known : l < ns.locks.size)
    (bound : (ns.lock l).resource = r) (canceling : (ns.lock l).state = .canceling) :
    Minding ns (ns.leave l r) := by
  have held : r < ns.resources.size := bound ▸ sound.placed l known
  obtain ⟨b, left⟩ := sound.leave known bound canceling
  have granted := left.sound.known_granted r
  rw [leave_eq] at granted ⊢
  rw [queues_retire, queues_conclude held, size_retire, size_conclude] at granted
  refine Minding.after (minding_conclude sound held (fun k elsewhere none => ?_)
    fun w g wants holds against => ?_) (undecided_retire _ l)
  · exact avoids_departing (fun same => elsewhere (same ▸ bound)) none
  · exact .heeded (Arbiter.heeded_reprocess _ wants holds (granted g holds) against)

end Namespace

open Namespace (Minding Undecided)

theorem Opening.minding {ns ns' : Namespace} {todo : List Stage} (opening : Opening ns todo ns') :
    Minding ns ns' := by
  apply Undecided.minding
  cases opening with
  | still _ => exact .refl _
  | @register req _ _ _ _ _ => exact ns.undecided_addLock req
  | @rebind _ k _ _ => exact .of_roster (ns.alike_findOrCreate k) (ns.roster_findOrCreate k)
  | @glimpse _ r _ _ => exact .of_roster (ns.alike_addRef r) rfl
  | evict owner => exact ns.undecided_silence _
  | shutdown _ => exact (ns.undecided_silence _).trans (.of_same rfl rfl)

theorem Stage.Ready.minding {ns : Namespace} {stage : Stage} {r : ResourceId}
    (ready : stage.Ready ns r) (sound : ns.Sound) : Minding ns (stage.carryOut ns r).space := by
  have releasing {ns' : Namespace} (done : Minding ns ns') (q : ResourceId)
      (outcome : Option Outcome) :
      Minding ns (Progress.releasing ns' q outcome).space :=
    done.after (.of_roster (ns'.alike_dropRef q) rfl)
  have sound' := (ready.effect sound).sound
  obtain ⟨fits, bound, going⟩ := ready
  cases stage with
  | submit k discard =>
    simp only [carryOut]
    split
    · next done => exact sound.minding_submit fits (bound k _ rfl) done
    · cases discard with
      | true => exact (ns.undecided_silence [k]).minding
      | false => exact (Undecided.refl ns).minding
  | changeMode k mode =>
    simp only [carryOut] at sound' ⊢
    split
    · next done =>
      rw [done] at sound'
      exact sound.minding_changeMode sound' fits (bound k _ rfl) done
    · exact (Undecided.refl ns).minding
  | mark k join =>
    simp only [carryOut]
    split
    · next marked => exact (Namespace.undecided_mark marked).minding
    · exact (Undecided.refl ns).minding
  | leave k => exact releasing (sound.minding_leave fits (bound k _ rfl) (going k rfl)) _ _
  | ask q requester => exact releasing (Namespace.undecided_ask fits requester).minding q _
  | reclaim q =>
    have same : (ns.reclaim q).roster = ns.roster := by
      unfold Namespace.reclaim
      dsimp only
      split <;> rfl
    exact (Undecided.of_roster (ns.alike_reclaim q) same).minding
  | move k target => exact releasing (ns.undecided_move k target).minding _ _
  | forget owner => exact (Undecided.of_same rfl rfl).minding
  | close => exact ns.undecided_closeDispatcher.minding
  | look q others seen => cases others <;> exact (Undecided.refl ns).minding
  | _ => exact (Undecided.refl ns).minding

end LockManager
