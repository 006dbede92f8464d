import LockManager.Proofs.Alone
import LockManager.Proofs.CancelPriority
import LockManager.Proofs.Namespace.Elsewhere

set_option autoImplicit false

/-!
Resources do not interfere. Whatever is done under one key leaves alone what is under the others: their
resources with references and queues, and the locks bound to them with all that is known of them.
-/

namespace LockManager

open Namespace (Elsewhere)

namespace Namespace

/-- The key under which an ordinary operation does something, if it does anything. -/
def keyOf? (ns : Namespace) : Operation → Option Key
  | .enqueue req => some req.key
  | .enqueueLock h | .convert h _ | .cancel h => (ns.handles.get? h).map fun l => (ns.lock l).key
  | .glimpse k _ => some k
  | _ => none

/-- What is under the key is as it was: the resource in the index with its references and its queues, and
the locks not done with that are bound to it, whose handles name them still. -/
structure SameUnder (j : Key) (ns ns' : Namespace) : Prop where
  index : ns'.index.get? j = ns.index.get? j
  resource : ∀ r, ns.index.get? j = some r → ns'.resource r = ns.resource r
  lock : ∀ l, ns.Alive l → (ns.lock l).key = j → ns'.Alive l ∧ ns'.lock l = ns.lock l
  handle : ns'.Room → ∀ h l, ns.handles.get? h = some l → (ns.lock l).key = j →
    ns'.handles.get? h = some l

variable {ns ns' : Namespace} {l : LockId} {r : ResourceId} {op : Operation} {j : Key}

theorem SameUnder.refl (j : Key) (ns : Namespace) : SameUnder j ns ns :=
  ⟨rfl, fun _ _ => rfl, fun _ alive _ => ⟨alive, rfl⟩, fun _ _ _ found _ => found⟩

/-- Another resource than the one under the key has been worked on. -/
theorem Elsewhere.sameUnder (elsewhere : Elsewhere r ns ns') (calm : ns.Calm) (calm' : ns'.Calm)
    (other : j ≠ (ns'.resource r).key) : SameUnder j ns ns' := by
  have index := elsewhere.index j other
  have apart {q : ResourceId} (there : ns.index.get? j = some q) : q ≠ r := by
    rintro rfl
    exact other (calm'.counted.keyed j q (index.trans there)).symm
  have lock {l : LockId} (alive : ns.Alive l) (under : (ns.lock l).key = j) :
      ns'.Alive l ∧ ns'.lock l = ns.lock l := by
    have same := elsewhere.lock l alive.1 (apart (under ▸ calm.counted.indexed alive))
    exact ⟨⟨alive.1.trans_le elsewhere.locks, same.symm ▸ alive.2⟩, same⟩
  refine ⟨index, fun q there => ?_, fun l => lock, fun room h l found under => ?_⟩
  · exact elsewhere.resource q (calm.sound.indexed j q there) (apart there)
  · obtain ⟨alive, bears⟩ := calm.names h l found
    obtain ⟨alive', same⟩ := lock alive under
    exact ((calm'.sound.handles room).2 h l).mpr ⟨alive'.1, same.symm ▸ bears, alive'.2⟩

/-- The operation has nothing to do, or all it has to do is about the resource under its key. -/
def OpensAt (ns : Namespace) (op : Operation) (t : Task) (ns' : Namespace) : Prop :=
  t.todo = [] ∧ ns' = ns ∨
    ∃ r, r < ns'.resources.size ∧ ns.keyOf? op = some (ns'.resource r).key ∧ Elsewhere r ns ns' ∧
      ∀ stage ∈ t.todo, stage.About ns' r

/-- The operation has one stage, which is about the lock that its handle names. -/
theorem Calm.opensAt_lock (calm : ns.Calm) {h : Handle} (found : ns.lookup h = .ok l)
    (key : ns.keyOf? op = (ns.handles.get? h).map fun l => (ns.lock l).key) {t : Task}
    (about : ∀ stage ∈ t.todo, stage.About ns (ns.lock l).resource) : ns.OpensAt op t ns := by
  have alive := (calm.named found).1
  have there : ns.handles.get? h = some l := by
    unfold lookup at found
    cases there : ns.handles.get? h with
    | none => simp [there] at found
    | some k => simpa [there] using found
  refine .inr ⟨_, calm.sound.placed l alive.1, ?_, .refl _ ns, about⟩
  rw [key, there, Option.map_some, calm.counted.named l alive.1]

theorem Calm.opensAt (calm : ns.Calm) (ordinary : op.Ordinary) :
    ns.OpensAt op (Task.start ns op).1 (Task.start ns op).2 := by
  have idle {outcome : Outcome} : ns.OpensAt op (Task.answered outcome) ns := .inl ⟨rfl, rfl⟩
  cases op with
  | enqueue req =>
    simp only [Task.start]
    cases done : ns.register req with
    | error e => exact idle
    | ok registered =>
      obtain ⟨registration, ns'⟩ := registered
      rcases register_ok done with ⟨l, rfl, rfl⟩ | ⟨rfl, rfl, -⟩
      · exact idle
      · have found := calm.counted.findOrCreate calm.sound req.key
        refine .inr ⟨(ns.findOrCreate req.key).1, ns.findOrCreate_lt calm.sound.indexed req.key, ?_,
          ns.elsewhere_addLock req, fun stage chosen => ?_⟩
        · exact congrArg some found.2.symm
        · rw [List.mem_singleton.mp chosen, Stage.About, lock_addLock, if_pos rfl]
          rfl
  | enqueueLock h =>
    simp only [Task.start]
    cases found : ns.lookup h with
    | error e => exact idle
    | ok l => exact calm.opensAt_lock found rfl (by simp [Stage.About])
  | convert h mode =>
    simp only [Task.start]
    cases ns.ensureRunning with
    | error e => exact idle
    | ok _ =>
      cases found : ns.lookup h with
      | error e => exact idle
      | ok l => exact calm.opensAt_lock found rfl (by simp [Stage.About])
  | cancel h =>
    simp only [Task.start]
    cases status : ns.handles.status h with
    | live l =>
      have there := calm.numbered.status_eq_live.mp status
      have found : ns.lookup h = .ok l := by simp only [lookup, there]
      exact calm.opensAt_lock found rfl (by simp [Stage.About])
    | retired => exact idle
    | unknown => exact idle
  | glimpse k requester =>
    simp only [Task.start, find?]
    cases ns.ensureRunning with
    | error e => exact idle
    | ok _ =>
      cases there : ns.index.get? k with
      | none => exact idle
      | some r =>
        have inside := calm.sound.indexed k r there
        refine .inr ⟨r, ?_, ?_, .modifyResource ns r fun _ => rfl, by simp [Stage.About]⟩
        · exact inside.trans_eq (Arena.size_modify ..).symm
        · exact congrArg some ((Counted.resource_addRef ns inside r).2.trans
            (calm.counted.keyed k r there)).symm
  | _ => exact ordinary.elim

end Namespace

namespace System

variable {config : Config} {s t : System} {i : TaskId} {r : ResourceId} {op : Operation}

/-- All that the task has to do is about `r`, and so is what has been done when it has gone on. -/
theorem Reachable.elsewhere_move (reachable : Reachable config s) (held : r < s.space.resources.size)
    (about : ∀ stage ∈ (s.task i).todo, stage.About s.space r) {m : Move} (mine : m.By i) :
    Elsewhere r s.space (s.move m).space ∧
      ∀ stage ∈ ((s.move m).task i).todo, stage.About (s.move m).space r := by
  have sound := reachable.sound
  rcases s.move_cases mine with ⟨stage, rest, q, todo, prepared, space, left, -⟩ |
    ⟨space, left, -⟩
  · have ready := sound.ready todo prepared
    have first : stage.About s.space r := about stage (todo ▸ List.mem_cons_self)
    have elsewhere := ready.elsewhere sound.space reachable.delivering held first
    rw [space, left]
    refine ⟨elsewhere, fun later chosen => ?_⟩
    rcases List.mem_append.mp chosen with new | old
    · exact ready.about_next first elsewhere later new
    · have inside : later ∈ (s.task i).todo := todo ▸ List.mem_cons_of_mem _ old
      exact (about later inside).mono elsewhere (sound.fits i later inside)
  · rw [space, left]
    exact ⟨.refl r _, about⟩

theorem Reachable.elsewhere_follow (reachable : Reachable config s)
    (held : r < s.space.resources.size) (about : ∀ stage ∈ (s.task i).todo, stage.About s.space r)
    {moves : List Move} (mine : ∀ m ∈ moves, m.By i) :
    Elsewhere r s.space (s.follow moves).space := by
  unfold follow
  induction moves generalizing s with
  | nil => exact .refl r _
  | cons m moves ih =>
    obtain ⟨first, later⟩ := reachable.elsewhere_move held about (mine m List.mem_cons_self)
    have held' := held.trans_le first.resources
    exact first.trans (ih (reachable.reaches (s.reaches_move m)) held' later
      fun x inside => mine x (List.mem_cons_of_mem m inside)) held'

/-- With no other in progress, an ordinary operation can be carried out, and what is under other keys than
its own is as it was then. -/
theorem spares_other_keys (reachable : Reachable config s) (quiet : s.quiet = true)
    (ordinary : op.Ordinary) :
    (∃ t, s.Carries op t) ∧
      ∀ t, s.Carries op t → ∀ j, s.space.keyOf? op ≠ some j → s.space.SameUnder j t.space := by
  refine ⟨exists_carries reachable quiet ordinary, fun t carries j other => ?_⟩
  have calm := reachable.calm quiet
  rcases calm.opensAt ordinary with ⟨idle, same⟩ | ⟨r, held, key, opening, about⟩
  · have runs : Namespace.Runs (Task.start s.space op).2 (Task.start s.space op).1.todo s.space := by
      rw [idle, same]
      exact .done _
    rw [carries.space_of_runs reachable.sound quiet runs]
    exact .refl j _
  · have begun : Reachable config (s.start op) := reachable.reaches (.single (.start s op))
    have there := (reachable.reaches carries.reaches).calm carries.1
    obtain ⟨-, moves, mine, rfl⟩ := carries
    rw [← task_start] at about
    have later := begun.elsewhere_follow held about mine
    refine (opening.trans later held).sameUnder calm there ?_
    rw [later.key held]
    exact fun same => other (same ▸ key)

/-- Under each of two keys a lock is held exclusively and has been asked to give way to another one. -/
def contendedTwice : System :=
  (fresh {}).follow
    (Move.through (.enqueue { key := ⟨1, 0⟩, mode := .exclusive, owner := ⟨"a"⟩ }) 0 ++
      Move.through (.enqueue { key := ⟨1, 0⟩, mode := .protectedRead, owner := ⟨"b"⟩ }) 1 ++
      Move.through (.enqueue { key := ⟨2, 0⟩, mode := .exclusive, owner := ⟨"a"⟩ }) 2 ++
      Move.through (.enqueue { key := ⟨2, 0⟩, mode := .protectedRead, owner := ⟨"b"⟩ }) 3)

/-- When the holder under the second key goes, the reader there is granted. Under the first the holder has
its message still, and the reader waits. -/
theorem spares_other_keys_contended :
    contendedTwice.space.keyOf? (.cancel ⟨2, 1⟩) = some ⟨2, 0⟩ ∧
      ∃ t, contendedTwice.Carries (.cancel ⟨2, 1⟩) t ∧ contendedTwice.space.SameUnder ⟨1, 0⟩ t.space ∧
        (t.space.lock 3).state = .granted ∧ (t.space.lock 1).state = .waiting ∧
          (t.space.lock 0).pending.length = 1 := by
  have reachable : Reachable {} contendedTwice := reachable_follow rfl _
  have quiet : contendedTwice.quiet = true := by decide +kernel
  have key : contendedTwice.space.keyOf? (.cancel ⟨2, 1⟩) = some ⟨2, 0⟩ := by decide +kernel
  have ordinary : (Operation.cancel ⟨2, 1⟩).Ordinary := trivial
  obtain ⟨⟨t, carries⟩, spares⟩ := spares_other_keys reachable quiet ordinary
  refine ⟨key, t, carries, spares t carries _ (by rw [key]; decide), ?_⟩
  rw [carries.space reachable quiet trivial]
  decide +kernel

end System
end LockManager
