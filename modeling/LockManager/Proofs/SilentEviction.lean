import LockManager.Proofs.Eviction
import LockManager.Proofs.Peers

set_option autoImplicit false

/-!
What an eviction does to others, and what the evicted owner hears of it. The owner's locks are silenced
before the first of them is canceled. Canceling them does to the locks of others what any cancel does:
they may come to what they have waited for.
-/

namespace LockManager

open Namespace (Bystands)

/-! ### Stages -/

/-- The stages of an eviction of `owner`. -/
def Stage.Ousts (ns : Namespace) (owner : Owner) : Stage → Prop
  | .mark l _ | .leave l | .awaitRetired l => (ns.lock l).claim.owner = owner
  | .reclaim _ => True
  | .forget o => o = owner
  | _ => False

namespace Stage.Ousts

variable {ns₀ ns : Namespace} {stage : Stage} {owner : Owner} {r : ResourceId} {k : LockId}

/-- None of them knows what the eviction comes to. -/
theorem outcome (ousts : stage.Ousts ns₀ owner) : (stage.carryOut ns r).outcome = none := by
  cases stage with
  | mark l join =>
    simp only [carryOut]
    split <;> rfl
  | leave | awaitRetired | reclaim | forget => rfl
  | _ => exact ousts.elim

theorem next (ousts : stage.Ousts ns₀ owner) :
    ∀ more ∈ (stage.carryOut ns r).next, more.Ousts ns₀ owner := by
  intro more inside
  cases yields_of_mem_next inside with
  | leave _ _ | join _ => exact ousts
  | left _ => trivial
  | mark _ | asked _ _ | moved _ _ | look _ _ _ _ => exact ousts.elim

/-- They deal with locks of the owner only. -/
theorem bystands (ousts : stage.Ousts ns₀ owner) (ready : stage.Ready ns r) (sound : ns.Sound)
    (other : (ns₀.lock k).claim.owner ≠ owner) : Bystands ns (stage.carryOut ns r).space k := by
  have apart {l : LockId} (mine : (ns₀.lock l).claim.owner = owner) : k ≠ l := by
    rintro rfl
    exact other mine
  obtain ⟨fits, bound, going⟩ := ready
  cases stage with
  | mark l join =>
    simp only [carryOut]
    split
    · next marked => exact (Namespace.confined_mark marked).others k (apart ousts)
    · exact .of_eq rfl
  | leave l =>
    obtain rfl := bound l _ rfl
    have left := (sound.confined_leave fits (going l rfl)).others k (apart ousts)
    simp only [carryOut]
    generalize ns.leave l (ns.lock l).resource = ns' at left ⊢
    exact left.trans (.of_eq rfl)
  | reclaim q => exact .of_outline ((ns.alike_reclaim q).lock k)
  | awaitRetired | forget => exact .of_eq rfl
  | _ => exact ousts.elim

end Stage.Ousts

namespace System

variable {config : Config} {s t u v : System} {i : TaskId} {op : Operation} {owner : Owner}

/-! ### Without other operations -/

/-- The operation has been begun and has come to its end, and no other has begun since. Messages may have
been handed over meanwhile, and time may have passed. -/
def Completes (s : System) (op : Operation) (t : System) : Prop :=
  t.quiet = true ∧ Reaches (s.start op) t ∧ t.tasks.size = s.tasks.size + 1

theorem size_start (s : System) (op : Operation) : (s.start op).tasks.size = s.tasks.size + 1 :=
  Arena.size_alloc ..

theorem size_move {m : Move} (mine : m.By i) : (s.move m).tasks.size = s.tasks.size := by
  rcases mine with rfl | rfl
  · simp only [move]
    cases taken : s.take? i with
    | none => rfl
    | some t =>
      obtain ⟨p, -, -, rfl⟩ := take?_eq taken
      exact Arena.size_modify ..
  · simp only [move]
    cases done : s.carryOut? i with
    | none => rfl
    | some t =>
      obtain ⟨stage, rest, q, -, -, -, tasks⟩ := Sound.carryOut_cases done
      exact (congrArg Arena.size tasks).trans (Arena.size_modify ..)

theorem size_follow {moves : List Move} (mine : ∀ m ∈ moves, m.By i) :
    (s.follow moves).tasks.size = s.tasks.size := by
  unfold follow
  induction moves generalizing s with
  | nil => rfl
  | cons m moves ih =>
    exact (ih fun m later => mine m (List.mem_cons_of_mem _ later)).trans
      (size_move (mine m List.mem_cons_self))

theorem Carries.completes (carries : s.Carries op t) : s.Completes op t := by
  obtain ⟨ended, moves, mine, rfl⟩ := carries
  exact ⟨ended, reaches_follow _ moves, (size_follow mine).trans (s.size_start op)⟩

/-- Unless an operation begins, a task goes on with the one it has, or locks, queues and tasks stay as
they are. -/
theorem Step.goes_on (step : Step u v) (same : v.tasks.size = u.tasks.size) :
    (∃ j, u.carryOut? j = some v) ∨ Namespace.Alike u.space v.space ∧
      ∀ j, (v.task j).todo = (u.task j).todo ∧ (v.task j).outcome = (u.task j).outcome := by
  cases step with
  | start op => exact absurd ((u.size_start op).symm.trans same) (Nat.succ_ne_self _)
  | hold found => exact absurd ((Arena.size_alloc ..).symm.trans same) (Nat.succ_ne_self _)
  | take i taken =>
    obtain ⟨p, -, -, rfl⟩ := take?_eq taken
    refine .inr ⟨.refl _, fun j => ⟨u.todo_hand i p j, ?_⟩⟩
    rw [task_hand]
    split
    · cases p <;> rfl
    · rfl
  | carryOut i done => exact .inl ⟨i, done⟩
  | takeUp taken => exact .inr ⟨Namespace.alike_takeUp taken, fun _ => ⟨rfl, rfl⟩⟩
  | finish busy => exact .inr ⟨Namespace.alike_finish _ _, fun _ => ⟨rfl, rfl⟩⟩
  | checkTimeouts => exact .inr ⟨Namespace.alike_checkTimeouts _, fun _ => ⟨rfl, rfl⟩⟩
  | pass duration => exact .inr ⟨Namespace.alike_pass _ duration, fun _ => ⟨rfl, rfl⟩⟩

/-! ### Going on with an eviction -/

/-- Nothing has been done since but what belongs to evicting `owner`. -/
structure Ousting (s u : System) (owner : Owner) : Prop where
  stages : ∀ j, ∀ stage ∈ (u.task j).todo, stage.Ousts s.space owner
  outcome : (u.task s.tasks.size).outcome = some (.ok (.evicted (s.space.ownedBy owner).length))
  size : u.space.locks.size = s.space.locks.size
  claim : ∀ k, (u.space.lock k).claim = (s.space.lock k).claim
  gone : ∀ k, (s.space.lock k).retired = true → (u.space.lock k).retired = true
  others : ∀ k, (s.space.lock k).claim.owner ≠ owner → Bystands s.space u.space k
  room : u.space.Room
  forgets : .forget owner ∈ (u.task s.tasks.size).todo ∨
    ∀ seq, u.space.replays.get? (owner, seq) = none

/-- What an owner has asked for is forgotten for good as long as no lock is made. -/
theorem Sound.forgets_step (sound : u.Sound) (step : Step u v)
    (size : v.space.locks.size = u.space.locks.size)
    (forgets : .forget owner ∈ (u.task i).todo ∨ ∀ seq, u.space.replays.get? (owner, seq) = none) :
    .forget owner ∈ (v.task i).todo ∨ ∀ seq, v.space.replays.get? (owner, seq) = none := by
  rcases forgets with inside | none
  · rcases todo_step step (lt_size_of_todo inside) with same | done
    · exact .inl (same ▸ inside)
    · obtain ⟨stage, rest, q, todo, -, space, tasks⟩ := Sound.carryOut_cases done
      have old := lt_size_of_todo inside
      rw [todo] at inside
      rcases List.mem_cons.mp inside with rfl | later
      · refine .inr fun seq => ?_
        rw [space]
        exact (Index.get?_restrict ..).trans (if_neg (by simp))
      · refine .inl ?_
        rw [task_of_modify tasks old]
        exact List.mem_append_right _ later
  · refine .inr fun seq => Option.eq_none_iff_forall_ne_some.mpr fun h found => ?_
    have before := sound.replays_of_size step size found
    rw [none] at before
    cases before

namespace Ousting

theorem start (quiet : s.quiet = true) (room : s.space.Room) (owner : Owner) :
    Ousting s (s.start (.evict owner)) owner := by
  have same : Namespace.Alike s.space (s.start (.evict owner)).space := s.space.alike_silence _
  have mine := s.task_start (.evict owner)
  refine ⟨fun j stage inside => ?_, congrArg Task.outcome mine, same.size,
    fun k => (congrArg Lock.claim (same.lock k) :),
    fun k gone => (congrArg Lock.retired (same.lock k) :).trans gone,
    fun k _ => .of_outline (same.lock k),
    (congrArg (·.slots.size) same.handles).trans_le room, .inl ?_⟩
  · by_cases here : j = s.tasks.size
    · rw [here, mine] at inside
      rcases List.mem_append.mp inside with mark | last
      · obtain ⟨l, owned, rfl⟩ := List.mem_map.mp mark
        have mine : (s.space.lock l).claim.owner = owner :=
          of_decide_eq_true (List.mem_filter.mp owned).2
        exact mine
      · obtain rfl := List.mem_singleton.mp last
        rfl
    · rw [task_start_of_ne _ here, todo_of_quiet quiet] at inside
      cases inside
  · rw [mine]
    exact List.mem_append_right _ (List.mem_singleton_self _)

theorem carryOut (ousting : Ousting s u owner) (sound : u.Sound) (done : u.carryOut? i = some v) :
    Ousting s v owner := by
  have step : Step u v := .carryOut i done
  obtain ⟨stage, rest, q, todo, prepared, space, tasks⟩ := Sound.carryOut_cases done
  have inside : stage ∈ (u.task i).todo := todo ▸ List.mem_cons_self
  have old : i < u.tasks.size := lt_size_of_todo inside
  have ousts := ousting.stages i stage inside
  have records := sound.records todo prepared
  rw [← space] at records
  refine ⟨fun j more member => ?_, ?_, records.size.trans ousting.size,
    fun k => (records.claim k).trans (ousting.claim k),
    fun k past => (records.retired k).mpr (.inl (ousting.gone k past)), fun k other => ?_,
    sound.room_of_size step records.size ousting.room,
    sound.forgets_step step records.size ousting.forgets⟩
  · by_cases here : j = i
    · rw [here, task_of_modify tasks old] at member
      rcases List.mem_append.mp member with new | later
      · exact ousts.next more new
      · exact ousting.stages i more (todo ▸ List.mem_cons_of_mem stage later)
    · exact ousting.stages j more (task_of_ne tasks here ▸ member)
  · by_cases here : s.tasks.size = i
    · rw [here, task_of_modify tasks old, ousts.outcome, ← here]
      exact ousting.outcome
    · rw [task_of_ne tasks here]
      exact ousting.outcome
  · rw [space]
    have ready := sound.ready todo prepared
    exact (ousting.others k other).trans (ousts.bystands ready sound.space other)

theorem step (ousting : Ousting s u owner) (sound : u.Sound) (step : Step u v)
    (same : v.tasks.size = u.tasks.size) : Ousting s v owner := by
  rcases step.goes_on same with ⟨j, done⟩ | ⟨alike, tasks⟩
  · exact ousting.carryOut sound done
  · exact ⟨fun j stage inside => ousting.stages j stage ((tasks j).1 ▸ inside),
      (tasks _).2.trans ousting.outcome, alike.size.trans ousting.size,
      fun k => (congrArg Lock.claim (alike.lock k) :).trans (ousting.claim k),
      fun k past => (congrArg Lock.retired (alike.lock k) :).trans (ousting.gone k past),
      fun k other => (ousting.others k other).trans (.of_outline (alike.lock k)),
      sound.room_of_size step alike.size ousting.room,
      sound.forgets_step step alike.size ousting.forgets⟩

end Ousting

theorem Sound.ousting (sound : s.Sound) (quiet : s.quiet = true) (room : s.space.Room)
    (run : Reaches (s.start (.evict owner)) u) (alone : u.tasks.size = s.tasks.size + 1) :
    Ousting s u owner := by
  have started : (s.start (.evict owner)).Sound := sound.step (.start s _)
  induction run with
  | refl => exact .start quiet room owner
  | @step t u before last ih =>
    have size : t.tasks.size = s.tasks.size + 1 := by
      refine Nat.le_antisymm (alone ▸ size_le_of_step last) ?_
      exact s.size_start (.evict owner) ▸ size_le_of_reaches before
    exact (ih size).step (started.reaches before) last (alone.trans size.symm)

/-! ### The end of it -/

end System

/-- No live lock, no entry and no answer is of `owner`. -/
structure Namespace.RidOf (ns : Namespace) (owner : Owner) : Prop where
  live : ∀ l ∈ ns.live, (ns.lock l).claim.owner ≠ owner
  entries : ∀ r, ∀ e ∈ (ns.resource r).queues.entries, e.claim.owner ≠ owner
  replays : ∀ seq, ns.replays.get? (owner, seq) = none

namespace System

variable {config : Config} {s t u v : System} {i : TaskId} {owner : Owner} {l : LockId}

theorem Sound.doomed_of_reaches (sound : s.Sound) (doomed : Doomed s l) (run : Reaches s t) :
    Doomed t l := by
  induction run with
  | refl => exact doomed
  | step before last ih => exact (sound.reaches before).doomed_step ih last

theorem Sound.muted_of_reaches (sound : s.Sound) (muted : (s.space.lock l).Muted)
    (run : Reaches s t) : (t.space.lock l).Muted := by
  induction run with
  | refl => exact muted
  | step before last ih => exact ((sound.reaches before).ignores last l ih).1

namespace Ousting

theorem ridOf (ousting : Ousting s t owner) (sound : s.Sound) (room : s.space.Room)
    (quiet : t.quiet = true) (run : Reaches (s.start (.evict owner)) t) : t.space.RidOf owner := by
  have started : (s.start (.evict owner)).Sound := sound.step (.start s _)
  have sound' := started.reaches run
  have none {l : LockId} (alive : t.space.Alive l) (mine : (t.space.lock l).claim.owner = owner) :
      False := by
    rw [ousting.claim] at mine
    have before : s.space.Alive l := by
      refine ⟨alive.1.trans_eq ousting.size, Bool.eq_false_iff.mpr fun gone => ?_⟩
      exact Bool.eq_false_iff.mp alive.2 (ousting.gone l gone)
    have owned : l ∈ s.space.ownedBy owner :=
      List.mem_filter.mpr ⟨(sound.space.mem_live_iff room).mpr before, decide_eq_true mine⟩
    have doomed : Doomed (s.start (.evict owner)) l := by
      refine .inr ⟨s.tasks.size, true, ?_⟩
      rw [task_start]
      exact List.mem_append_left _ (List.mem_map.mpr ⟨l, owned, rfl⟩)
    exact sound'.gone_of_doomed quiet alive.1 (started.doomed_of_reaches doomed run) alive
  refine ⟨fun l live => none ((sound'.space.mem_live_iff ousting.room).mp live),
    fun r e inside mine => ?_, ousting.forgets.resolve_left ?_⟩
  · have claim : e.claim = (t.space.lock e.claim.id).claim :=
      sound'.space.ledger.coherent.claim_eq inside
    exact none (sound'.space.alive_of_mem inside).1 (claim ▸ mine)
  · rw [todo_of_quiet quiet]
    exact List.not_mem_nil

/-- Whoever is somebody else's is still there. -/
theorem leftAlone (ousting : Ousting s t owner) (calm : s.space.Calm) (calm' : t.space.Calm)
    (room : s.space.Room) (live : l ∈ s.space.live) (other : (s.space.lock l).claim.owner ≠ owner) :
    l ∈ t.space.live ∧ (s.space.lock l).LeftAlone (t.space.lock l) := by
  have alive := (calm.sound.mem_live_iff room).mp live
  have bystands := ousting.others l other
  have alive' : t.space.Alive l :=
    ⟨alive.1.trans_eq ousting.size.symm, bystands.stays.retired.trans alive.2⟩
  exact ⟨(calm'.sound.mem_live_iff ousting.room).mpr alive', bystands.leftAlone calm calm' alive alive'⟩

end Ousting

/-- When an owner is evicted with no other operation in progress, its live locks are counted, and in the
end nothing is left of it. The locks of others are still live, and as they were but for being granted
what they waited for. From the beginning of the eviction no delivery begins for a lock that the owner
had then, whatever else happens meanwhile and afterwards (as long as slot numbers fit a handle, so that
the live locks are those in the table of handles). -/
theorem evicted_in_silence (reachable : Reachable config s) (quiet : s.quiet = true)
    (room : s.space.Room) (owner : Owner) :
    (∃ t, s.Completes (.evict owner) t) ∧
    (∀ t, s.Completes (.evict owner) t →
      (t.task s.tasks.size).outcome =
        some (.ok (.evicted (s.space.ownedBy owner).toFinset.card)) ∧
      t.space.RidOf owner ∧
      ∀ l ∈ s.space.live, (s.space.lock l).claim.owner ≠ owner →
        l ∈ t.space.live ∧ (s.space.lock l).LeftAlone (t.space.lock l)) ∧
    ∀ t u, Reaches (s.start (.evict owner)) t → Step t u →
      u.space.dispatcher.deliveries = t.space.dispatcher.deliveries ∨
        ∃ new, Hands t new u ∧ ∀ d ∈ new, d.lock ∉ s.space.ownedBy owner := by
  have sound := reachable.sound
  have calm := reachable.calm quiet
  have start : Step s (s.start (.evict owner)) := .start s _
  refine ⟨?_, fun t completes => ?_, fun t u run step => ?_⟩
  · obtain ⟨t, carries⟩ := sound.exists_carries quiet (calm.runs_evict room owner)
    exact ⟨t, carries.completes⟩
  · obtain ⟨ended, run, alone⟩ := completes
    have ousting := sound.ousting quiet room run alone
    have calm' := (reachable.reaches ((Reaches.single start).trans run)).calm ended
    have once : (s.space.ownedBy owner).Nodup := (calm.names.live_nodup room).filter _
    rw [List.toFinset_card_of_nodup once]
    exact ⟨ousting.outcome, ousting.ridOf sound room ended run,
      fun l live other => ousting.leftAlone calm calm' room live other⟩
  · have reached := reachable.reaches ((Reaches.single start).trans run)
    refine (reached.begins step).imp_right fun ⟨new, hands, heard⟩ => ⟨new, hands, ?_⟩
    intro d begun owned
    have known := ((sound.space.mem_live_iff room).mp (List.mem_of_mem_filter owned)).1
    have muted := s.space.muted_silence owned known
    exact heard d begun ((sound.step start).muted_of_reaches muted run)

/-- A has a resource to itself and waits there to read, as B does. -/
def readersBehindWriter : System :=
  (fresh {}).follow
    (Move.through (.enqueue ⟨⟨1, 0⟩, .exclusive, .plain, ⟨"a"⟩, some 7⟩) 0 ++
      Move.through (.enqueue ⟨⟨1, 0⟩, .protectedRead, .plain, ⟨"a"⟩, none⟩) 1 ++
      Move.through (.enqueue ⟨⟨1, 0⟩, .protectedRead, .plain, ⟨"b"⟩, none⟩) 2)

/-- Both readers are granted while A is being evicted. Only B hears of it. -/
theorem evicted_in_silence_readers :
    let s := readersBehindWriter
    let t := (s.start (.evict ⟨"a"⟩)).follow [.carryOut 3, .take 3, .take 3, .carryOut 3, .carryOut 3,
      .take 3, .take 3, .carryOut 3, .carryOut 3]
    s.Completes (.evict ⟨"a"⟩) t ∧ (t.task 3).outcome = some (.ok (.evicted 2)) ∧
      t.space.RidOf ⟨"a"⟩ ∧ (t.space.lock 1).everGranted = true ∧
      (s.space.lock 2).LeftAlone (t.space.lock 2) ∧ (t.space.lock 2).state = .granted ∧
      ∀ u v, Reaches (s.start (.evict ⟨"a"⟩)) u → Step u v →
        v.space.dispatcher.deliveries = u.space.dispatcher.deliveries ∨
          ∃ new, Hands u new v ∧ ∀ d ∈ new, d.lock ≠ 1 := by
  intro s t
  have reachable : Reachable {} s := reachable_follow rfl _
  have third : s.tasks.size = 3 := by decide +kernel
  have carries : s.Carries (.evict ⟨"a"⟩) t := by
    refine ⟨by decide +kernel, _, ?_, rfl⟩
    simp [third, Move.By]
  obtain ⟨-, ends, silent⟩ :=
    evicted_in_silence reachable (by decide +kernel) (by decide +kernel) ⟨"a"⟩
  obtain ⟨outcome, rid, others⟩ := ends t carries.completes
  have two : (s.space.ownedBy ⟨"a"⟩).toFinset.card = 2 := by decide +kernel
  rw [third, two] at outcome
  obtain ⟨-, left⟩ := others 2 (by decide +kernel) (by decide +kernel)
  refine ⟨carries.completes, outcome, rid, by decide +kernel, left, by decide +kernel,
    fun u v run step => ?_⟩
  refine (silent u v run step).imp_right fun ⟨new, hands, apart⟩ => ⟨new, hands, fun d begun same => ?_⟩
  exact apart d begun (same ▸ by decide +kernel)

end System
end LockManager
