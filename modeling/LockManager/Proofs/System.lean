import LockManager.Proofs.Task
import LockManager.System.Step
import Mathlib.Algebra.BigOperators.Group.Finset.Basic

set_option autoImplicit false

/-!
What holds of a system in every state that can come about. A lock stays bound to its resource while
a task counts on that: on the server side it never moves, and on the client side whoever moves it
holds its binding, which one task holds at a time. A cancel that has begun has one `leave` still to
come.
-/

namespace LockManager

namespace Task

/-- The resource that the task's place is about. -/
def site? (t : Task) : Option ResourceId :=
  match t.place with
  | .outside => none
  | .bound r | .inside r => some r

theorem holds_outside {t : Task} (role : Role) (place : t.place = .outside) :
    t.holds role = [] := by
  unfold holds
  rw [place]
  split <;> first | rfl | simp_all

theorem wants_cases {t : Task} {role : Role} {p : Primitive} (wanted : t.wants role = some p) :
    (∃ l, p = .binding l ∧ t.place = .outside ∧
        ((∃ side, t.need role = .guard l side) ∨ t.need role = .binding l)) ∨
      ∃ r, p = .queues r ∧ ((∃ l side, t.need role = .guard l side ∧ t.place = .bound r) ∨
        t.need role = .queues r ∧ t.place = .outside) := by
  unfold wants at wanted
  split at wanted
  · next l side what there =>
    cases wanted
    exact .inl ⟨l, rfl, there, .inl ⟨side, what⟩⟩
  · next l what there =>
    cases wanted
    exact .inl ⟨l, rfl, there, .inr what⟩
  · next l side r what there =>
    cases wanted
    exact .inr ⟨r, rfl, .inl ⟨l, side, what, there⟩⟩
  · next r what there =>
    cases wanted
    exact .inr ⟨r, rfl, .inr ⟨what, there⟩⟩
  · cases wanted

theorem need_taking (t : Task) (ns : Namespace) (role : Role) (p : Primitive) :
    (t.taking ns p).need role = t.need role := by
  cases p <;> rfl

/-- A task takes no more than what it wanted. -/
theorem holds_taking {t : Task} {role : Role} {p : Primitive} (ns : Namespace)
    (wanted : t.wants role = some p) {q : Primitive} (held : q ∈ (t.taking ns p).holds role) :
    q = p ∨ q ∈ t.holds role := by
  unfold holds at held ⊢
  rw [need_taking] at held
  rcases wants_cases wanted with ⟨l, rfl, -, ⟨side, what⟩ | what⟩ |
    ⟨r, rfl, ⟨l, side, what, there⟩ | ⟨what, -⟩⟩
  · rw [what] at held
    cases side <;> simp_all [taking]
  · rw [what] at held
    simp_all [taking]
  · rw [what] at held
    rw [what, there]
    cases side <;> simp_all [taking]
  · rw [what] at held
    simp_all [taking]

end Task

namespace System

/-- How many `leave` stages for the lock are still to come. -/
def leaves (s : System) (l : LockId) : Nat :=
  ∑ i ∈ Finset.range s.tasks.size, (s.task i).todo.count (.leave l)

structure Sound (s : System) : Prop where
  space : s.space.Sound
  fits : ∀ i, ∀ stage ∈ (s.task i).todo, stage.Fits s.space
  bound : ∀ i l role r, (s.task i).need s.role = .guard l role → (s.task i).site? = some r →
    (s.space.lock l).resource = r
  alone : ∀ i j p, p ∈ s.holds i → p ∈ s.holds j → i = j
  going : ∀ l, l < s.space.locks.size → s.leaves l = s.space.going l

variable {s : System}

/-! ### Tasks -/

theorem lt_size_of_todo {i : TaskId} {stage : Stage} (inside : stage ∈ (s.task i).todo) :
    i < s.tasks.size := by
  by_contra beyond
  have default' : s.task i = default := s.tasks.get_beyond beyond
  rw [default'] at inside
  cases inside

theorem lt_size_of_holds {i : TaskId} {p : Primitive} (held : p ∈ s.holds i) :
    i < s.tasks.size := by
  by_contra beyond
  have none : (s.task i).todo = [] := by
    cases todo : (s.task i).todo with
    | nil => rfl
    | cons stage rest => exact absurd (lt_size_of_todo (todo ▸ List.mem_cons_self)) beyond
  have nothing : (s.task i).need s.role = .nothing := by
    unfold Task.need
    rw [none]
  unfold holds Task.holds at held
  rw [nothing] at held
  simp at held

@[simp] theorem task_start (s : System) (op : Operation) :
    (s.start op).task s.tasks.size = (Task.start s.space op).1 :=
  Arena.get_alloc_size ..

theorem task_start_of_ne (op : Operation) {i : TaskId} (other : i ≠ s.tasks.size) :
    (s.start op).task i = s.task i :=
  (Arena.get_alloc ..).trans (if_neg other)

theorem leaves_alloc (ns : Namespace) {t : Task} {l : LockId} (none : Stage.leave l ∉ t.todo) :
    System.leaves { space := ns, tasks := s.tasks.alloc t } l = s.leaves l := by
  unfold leaves System.task
  rw [Arena.size_alloc, Finset.sum_range_succ, Arena.get_alloc_size, List.count_eq_zero.mpr none,
    Nat.add_zero]
  apply Finset.sum_congr rfl
  intro i inside
  rw [Arena.get_alloc, if_neg (Nat.ne_of_lt (Finset.mem_range.mp inside))]

section

variable {t : System} {i j : TaskId} {f : Task → Task}

theorem task_of_modify (tasks : t.tasks = s.tasks.modify i f) (old : i < s.tasks.size) :
    t.task i = f (s.task i) := by
  unfold System.task
  rw [tasks, Arena.get_modify_self _ _ old]

theorem task_of_ne (tasks : t.tasks = s.tasks.modify i f) (other : j ≠ i) :
    t.task j = s.task j := by
  unfold System.task
  rw [tasks, Arena.get_modify_of_ne _ _ (Ne.symm other)]

end

/-! ### Handing over -/

theorem take?_eq {i : TaskId} {t : System} (taken : s.take? i = some t) :
    ∃ p, s.wants i = some p ∧ s.free p = true ∧ t = s.hand i p := by
  unfold take? at taken
  split at taken
  · next p wanted =>
    split at taken
    · next free =>
      cases taken
      exact ⟨p, wanted, free, rfl⟩
    · cases taken
  · cases taken

theorem task_hand (s : System) (i : TaskId) (p : Primitive) (j : TaskId) : (s.hand i p).task j =
    if i = j ∧ i < s.tasks.size then (s.task j).taking s.space p else s.task j :=
  Arena.get_modify ..

theorem todo_hand (s : System) (i : TaskId) (p : Primitive) (j : TaskId) :
    ((s.hand i p).task j).todo = (s.task j).todo := by
  rw [task_hand]
  split
  · cases p <;> rfl
  · rfl

theorem outcome_hand (s : System) (i : TaskId) (p : Primitive) (j : TaskId) :
    ((s.hand i p).task j).outcome = (s.task j).outcome := by
  rw [task_hand]
  split
  · cases p <;> rfl
  · rfl

theorem need_hand (s : System) (i : TaskId) (p : Primitive) (j : TaskId) :
    ((s.hand i p).task j).need s.role = (s.task j).need s.role := by
  unfold Task.need
  rw [todo_hand]

theorem holds_hand {i : TaskId} {p : Primitive} (wanted : s.wants i = some p) {q : Primitive}
    {k : TaskId} (held : q ∈ (s.hand i p).holds k) : q ∈ s.holds k ∨ q = p ∧ k = i := by
  unfold holds at held
  rw [task_hand] at held
  split at held
  · next here =>
    obtain ⟨rfl, -⟩ := here
    rcases Task.holds_taking s.space wanted held with same | old
    · exact .inr ⟨same, rfl⟩
    · exact .inl old
  · exact .inl held

namespace Sound

/-- On which side a task takes a binding for the queues is the side of the system. -/
theorem guard (sound : s.Sound) {i : TaskId} {l : LockId} {side : Role}
    (what : (s.task i).need s.role = .guard l side) :
    l < s.space.locks.size ∧ side = s.role := by
  unfold Task.need at what
  split at what
  · next stage rest todo => exact (sound.fits i stage (todo ▸ List.mem_cons_self)).guard what
  · cases what

/-- On the client side whoever counts on a binding holds it. -/
theorem holds_binding (sound : s.Sound) (client : s.role = .client) {i : TaskId} {l : LockId}
    {side : Role} {r : ResourceId} (what : (s.task i).need s.role = .guard l side)
    (site : (s.task i).site? = some r) : .binding l ∈ s.holds i := by
  obtain ⟨-, rfl⟩ := sound.guard what
  unfold Task.site? at site
  unfold holds Task.holds
  rw [what]
  cases place : (s.task i).place with
  | outside => simp [place] at site
  | bound q => simp [client]
  | inside q => simp [client]

/-! ### Steps -/

theorem alike (sound : s.Sound) {ns : Namespace} (same : Namespace.Alike s.space ns) :
    ({ s with space := ns } : System).Sound := by
  have config : ns.config = s.space.config := congrArg Ledger.config same.ledger
  have lock : ∀ k, (ns.lock k).outline = (s.space.lock k).outline := same.lock
  have role : ({ s with space := ns } : System).role = s.role := congrArg Config.role config
  refine ⟨sound.space.alike same, fun i stage inside => ?_, fun i l side r what site => ?_,
    fun i j p held held' => ?_, fun l known => ?_⟩
  · exact (sound.fits i stage inside).mono config (Nat.le_of_eq same.size.symm) same.grown
  · rw [role] at what
    exact (congrArg Lock.resource (lock l)).trans (sound.bound i l side r what site)
  · simp only [holds, role] at held held'
    exact sound.alone i j p held held'
  · have still : ns.going l = s.space.going l :=
      Namespace.going_congr (by rw [← Lock.outline_state, lock, Lock.outline_state])
    exact (sound.going l (Nat.lt_of_lt_of_eq known same.size)).trans still.symm

/-- A task that waits for nothing yet has been added. -/
theorem begun (sound : s.Sound) {t : Task} {ns : Namespace} (begun : Begun s.space t ns) :
    ({ space := ns, tasks := s.tasks.alloc t } : System).Sound := by
  have role : ({ space := ns, tasks := s.tasks.alloc t } : System).role = s.role :=
    congrArg Config.role begun.config
  have task : ∀ i, ({ space := ns, tasks := s.tasks.alloc t } : System).task i =
      if i = s.tasks.size then t else s.task i := s.tasks.get_alloc t
  have nowhere : t.site? = none := by
    unfold Task.site?
    rw [begun.place]
  refine ⟨begun.sound, fun i stage inside => ?_, fun i l side r what site => ?_,
    fun i j p held held' => ?_, fun l known => ?_⟩
  · rw [task] at inside
    split at inside
    · exact begun.fits stage inside
    · exact (sound.fits i stage inside).mono begun.config begun.size begun.grown
  · rw [task] at what site
    split at what
    · next last =>
      rw [if_pos last, nowhere] at site
      cases site
    · next old =>
      rw [if_neg old] at site
      rw [role] at what
      have same := begun.lock l (sound.guard what).1
      exact (congrArg Lock.resource same).trans (sound.bound i l side r what site)
  · have old : ∀ k, p ∈ System.holds { space := ns, tasks := s.tasks.alloc t } k →
        p ∈ s.holds k := by
      intro k held
      unfold holds at held
      rw [role, task] at held
      split at held
      · rw [Task.holds_outside _ begun.place] at held
        cases held
      · exact held
    exact sound.alone i j p (old i held) (old j held')
  · rw [leaves_alloc ns (begun.none l)]
    by_cases old : l < s.space.locks.size
    · rw [sound.going l old]
      refine (Namespace.going_congr ?_).symm
      rw [← Lock.outline_state, begun.lock l old, Lock.outline_state]
    · have new := begun.fresh l (Nat.le_of_not_lt old) known
      have nobody : s.leaves l = 0 := by
        refine Finset.sum_eq_zero fun i _ => List.count_eq_zero.mpr fun inside => ?_
        exact old (sound.fits i _ inside)
      rw [nobody, Namespace.going, new]
      rfl

/-- What a task takes for a binding is where the lock is bound. -/
theorem site_taking (sound : s.Sound) {i : TaskId} {p : Primitive} (wanted : s.wants i = some p)
    {l : LockId} {side : Role} {r : ResourceId} (needs : (s.task i).need s.role = .guard l side)
    (site : ((s.task i).taking s.space p).site? = some r) : (s.space.lock l).resource = r := by
  rcases Task.wants_cases wanted with ⟨k, rfl, -, ⟨side', what⟩ | what⟩ |
    ⟨q, rfl, ⟨k, side', what, there⟩ | ⟨what, -⟩⟩
  · rw [needs] at what
    cases what
    exact Option.some.inj site
  · rw [needs] at what
    cases what
  · have before : (s.task i).site? = some q := by
      unfold Task.site?
      rw [there]
    cases site
    exact sound.bound i l side _ needs before
  · rw [needs] at what
    cases what

theorem hand (sound : s.Sound) {i : TaskId} {p : Primitive} (wanted : s.wants i = some p)
    (free : s.free p = true) : (s.hand i p).Sound := by
  have nobody : ∀ k, p ∉ s.holds k := by
    intro k held
    have all := List.all_eq_true.mp free k (List.mem_range.mpr (lt_size_of_holds held))
    exact of_decide_eq_true all held
  refine ⟨sound.space, fun j stage inside => ?_, fun j l side r needs site => ?_,
    fun j k q held held' => ?_, fun l known => ?_⟩
  · rw [todo_hand] at inside
    exact sound.fits j stage inside
  · have before : (s.task j).need s.role = .guard l side := s.need_hand i p j ▸ needs
    rw [task_hand] at site
    split at site
    · next here =>
      obtain ⟨rfl, -⟩ := here
      exact sound.site_taking wanted before site
    · exact sound.bound j l side r before site
  · rcases holds_hand wanted held with old | ⟨rfl, rfl⟩ <;>
      rcases holds_hand wanted held' with old' | ⟨same, rfl⟩
    · exact sound.alone j k q old old'
    · exact absurd (same ▸ old) (nobody j)
    · exact absurd old' (nobody k)
    · rfl
  · have total : (s.hand i p).leaves l = s.leaves l := by
      unfold leaves
      rw [show (s.hand i p).tasks.size = s.tasks.size from Arena.size_modify ..]
      exact Finset.sum_congr rfl fun j _ => by rw [todo_hand]
    rw [total]
    exact sound.going l known

theorem take (sound : s.Sound) {i : TaskId} {t : System} (taken : s.take? i = some t) :
    t.Sound := by
  obtain ⟨p, wanted, free, rfl⟩ := take?_eq taken
  exact sound.hand wanted free

/-! ### Carrying out -/

theorem carryOut_cases {i : TaskId} {t : System} (done : s.carryOut? i = some t) :
    ∃ stage rest r, (s.task i).todo = stage :: rest ∧ s.prepared? i = some r ∧
      t.space = (stage.carryOut s.space r).space ∧
      t.tasks = s.tasks.modify i fun t =>
        { todo := (stage.carryOut s.space r).next ++ rest
          place := .outside
          outcome := (stage.carryOut s.space r).outcome <|> t.outcome } := by
  unfold carryOut? at done
  split at done
  · next stage rest r todo prepared =>
    cases done
    exact ⟨stage, rest, r, todo, prepared, rfl, rfl⟩
  · cases done

theorem need_of_todo {i : TaskId} {stage : Stage} {rest : List Stage}
    (todo : (s.task i).todo = stage :: rest) : (s.task i).need s.role = stage.need s.role := by
  unfold Task.need
  rw [todo]

/-- The queues that a task holds for a lock are those of the resource it is bound to. -/
theorem bound_of_prepared (sound : s.Sound) {i : TaskId} {stage : Stage} {rest : List Stage}
    {r : ResourceId} (todo : (s.task i).todo = stage :: rest) (prepared : s.prepared? i = some r)
    {l : LockId} {side : Role} (what : stage.need s.role = .guard l side) :
    (s.space.lock l).resource = r := by
  have needs := (need_of_todo todo).trans what
  apply sound.bound i l side r needs
  unfold prepared? at prepared
  rw [needs] at prepared
  unfold Task.site?
  cases place : (s.task i).place with
  | outside => simp [place] at prepared
  | bound q => simp [place] at prepared
  | inside q => simpa [place] using prepared

/-- Whoever is about to take a lock out of the queues has begun to cancel it. -/
theorem canceling_of_leave (sound : s.Sound) {i : TaskId} {l : LockId}
    (inside : Stage.leave l ∈ (s.task i).todo) : (s.space.lock l).state = .canceling := by
  have one : 1 ≤ s.leaves l := by
    rw [leaves, ← Finset.add_sum_erase _ _ (Finset.mem_range.mpr (lt_size_of_todo inside))]
    exact Nat.le_trans (List.one_le_count_iff.mpr inside) (Nat.le_add_right _ _)
  rw [sound.going l (sound.fits i _ inside), Namespace.going] at one
  by_contra other
  rw [if_neg other] at one
  exact Nat.not_succ_le_zero 0 one

/-- A task that may go on has made sure of what its next stage needs. -/
theorem ready (sound : s.Sound) {i : TaskId} {stage : Stage} {rest : List Stage} {r : ResourceId}
    (todo : (s.task i).todo = stage :: rest) (prepared : s.prepared? i = some r) :
    stage.Ready s.space r := by
  have inside : stage ∈ (s.task i).todo := todo ▸ List.mem_cons_self
  refine ⟨sound.fits i stage inside, fun l side what => ?_, fun l same => ?_⟩
  · exact sound.bound_of_prepared todo prepared what
  · exact sound.canceling_of_leave (same ▸ inside)

/-- The next stage of the task does what it should. -/
theorem effect (sound : s.Sound) {i : TaskId} {stage : Stage} {rest : List Stage} {r : ResourceId}
    (todo : (s.task i).todo = stage :: rest) (prepared : s.prepared? i = some r) :
    Effect s.space stage (stage.carryOut s.space r) :=
  (sound.ready todo prepared).effect sound.space

/-- No task counts on where a lock is bound while another one moves it. -/
theorem still (sound : s.Sound) {i j : TaskId} (other : i ≠ j) {stage : Stage} {rest : List Stage}
    {q : ResourceId} (todo : (s.task i).todo = stage :: rest) (prepared : s.prepared? i = some q)
    {l : LockId} {side : Role} {r : ResourceId} (needs : (s.task j).need s.role = .guard l side)
    (site : (s.task j).site? = some r) (target : ResourceId) : stage ≠ .move l target := by
  rintro rfl
  have fits : (Stage.move l target).Fits s.space := sound.fits i _ (todo ▸ List.mem_cons_self)
  have client : s.role = .client := fits.2.2
  have need : (s.task i).need s.role = .binding l := by
    unfold Task.need
    rw [todo]
    rfl
  have mine : .binding l ∈ s.holds i := by
    unfold prepared? at prepared
    rw [need] at prepared
    unfold holds Task.holds
    rw [need]
    cases place : (s.task i).place with
    | outside => simp [place] at prepared
    | bound q => simp
    | inside q => simp [place] at prepared
  exact other (sound.alone i j _ mine (sound.holds_binding client needs site))

theorem sum_range_change {f g : Nat → Nat} {n i : Nat} (inside : i < n)
    (same : ∀ j, j ≠ i → g j = f j) :
    ∑ j ∈ Finset.range n, g j + f i = ∑ j ∈ Finset.range n, f j + g i := by
  have there := Finset.mem_range.mpr inside
  have rest : ∑ j ∈ (Finset.range n).erase i, g j = ∑ j ∈ (Finset.range n).erase i, f j :=
    Finset.sum_congr rfl fun j member => same j (Finset.ne_of_mem_erase member)
  have before := Finset.add_sum_erase _ f there
  have after := Finset.add_sum_erase _ g there
  omega

theorem carryOut (sound : s.Sound) {i : TaskId} {t : System} (done : s.carryOut? i = some t) :
    t.Sound := by
  obtain ⟨stage, rest, q, todo, prepared, space, tasks⟩ := carryOut_cases done
  have effect := sound.effect todo prepared
  have inside : i < s.tasks.size := lt_size_of_todo (todo ▸ List.mem_cons_self)
  have role : t.role = s.role := by
    unfold System.role
    rw [space, effect.config]
  have mine : (t.task i).todo = (stage.carryOut s.space q).next ++ rest ∧
      (t.task i).place = .outside := by
    rw [task_of_modify tasks inside]
    exact ⟨rfl, rfl⟩
  have others : ∀ j, j ≠ i → t.task j = s.task j := fun j => task_of_ne tasks
  have kept : ∀ j, ∀ p ∈ t.holds j, p ∈ s.holds j := by
    intro j p held
    unfold holds at held
    by_cases same : j = i
    · rw [same, Task.holds_outside _ mine.2] at held
      cases held
    · rw [role, others j same] at held
      exact held
  refine ⟨space ▸ effect.sound, fun j next member => ?_, fun j l side r needs site => ?_,
    fun j k p held held' => sound.alone j k p (kept j p held) (kept k p held'), fun l known => ?_⟩
  · have old : ∀ x : Stage, x.Fits s.space → x.Fits t.space := fun x fits =>
      fits.mono (space ▸ effect.config) (space ▸ Nat.le_of_eq effect.size.symm)
        (space ▸ effect.grown)
    by_cases same : j = i
    · rw [same, mine.1] at member
      rcases List.mem_append.mp member with new | later
      · rw [space]
        exact effect.fits next new
      · exact old next (sound.fits i next (todo ▸ List.mem_cons_of_mem stage later))
    · rw [others j same] at member
      exact old next (sound.fits j next member)
  · by_cases same : j = i
    · unfold Task.site? at site
      rw [same, mine.2] at site
      cases site
    · rw [others j same] at needs site
      rw [role] at needs
      rw [space, effect.bound l (sound.still (Ne.symm same) todo prepared needs site)]
      exact sound.bound j l side r needs site
  · have count : t.tasks.size = s.tasks.size := by
      rw [tasks, Arena.size_modify]
    have change := sum_range_change (f := fun j => (s.task j).todo.count (.leave l))
      (g := fun j => (t.task j).todo.count (.leave l)) inside
      fun j other => by simp only [others j other]
    have going := effect.going l
    have before := sound.going l (by
      rw [space, effect.size] at known
      exact known)
    simp only [mine.1, todo, List.count_append, List.count_cons] at change
    simp only [List.count_cons, List.count_nil, Nat.zero_add] at going
    unfold leaves at before ⊢
    rw [count, space]
    omega

end Sound

/-! ### Runs -/

theorem sound_create {config : Config} {ns : Namespace}
    (created : Namespace.create config = .ok ns) : ({ space := ns } : System).Sound := by
  have nothing : ∀ i, (({ space := ns } : System).task i).todo = [] := by
    intro i
    cases todo : (({ space := ns } : System).task i).todo with
    | nil => rfl
    | cons stage rest =>
      exact absurd (lt_size_of_todo (todo ▸ List.mem_cons_self)) (Nat.not_lt_zero i)
  have empty : ns.locks.size = 0 := by
    obtain ⟨-, rfl⟩ := Namespace.create_eq_ok.mp created
    rfl
  refine ⟨Namespace.sound_create created, fun i stage inside => ?_, fun i l side r needs _ => ?_,
    fun i j p held _ => absurd (lt_size_of_holds held) (Nat.not_lt_zero i), fun l known => ?_⟩
  · rw [nothing] at inside
    cases inside
  · unfold Task.need at needs
    rw [nothing] at needs
    cases needs
  · exact absurd (Nat.lt_of_lt_of_eq known empty) (Nat.not_lt_zero l)

theorem Sound.step {s t : System} (sound : s.Sound) (step : Step s t) : t.Sound := by
  cases step with
  | start op => exact sound.begun (Task.begun_start sound.space op)
  | hold found =>
    refine sound.begun (.single sound.space (.refl _) (by simp) ?_)
    exact ⟨sound.space.lookup found, rfl⟩
  | take i taken => exact sound.take taken
  | carryOut i done => exact sound.carryOut done
  | takeUp taken => exact sound.alike (Namespace.alike_takeUp taken)
  | finish busy => exact sound.alike (Namespace.alike_finish _ _)
  | checkTimeouts => exact sound.alike (Namespace.alike_checkTimeouts _)
  | pass duration => exact sound.alike (Namespace.alike_pass _ duration)

/-- A step begins an operation, carries out a stage that is ready for it, or leaves locks and queues as
they are. -/
theorem Sound.change {s t : System} (sound : s.Sound) (step : Step s t) :
    (∃ op, t.space = (Task.start s.space op).2) ∨
      (∃ (stage : Stage) (r : ResourceId), stage.Ready s.space r ∧
        t.space = (stage.carryOut s.space r).space) ∨
      Namespace.Alike s.space t.space := by
  cases step with
  | start op => exact .inl ⟨op, rfl⟩
  | hold found => exact .inr (.inr (.refl _))
  | take i taken =>
    obtain ⟨p, -, -, rfl⟩ := take?_eq taken
    exact .inr (.inr (.refl _))
  | carryOut i done =>
    obtain ⟨stage, rest, q, todo, prepared, space, -⟩ := Sound.carryOut_cases done
    exact .inr (.inl ⟨stage, q, sound.ready todo prepared, space⟩)
  | takeUp taken => exact .inr (.inr (Namespace.alike_takeUp taken))
  | finish busy => exact .inr (.inr (Namespace.alike_finish _ _))
  | checkTimeouts => exact .inr (.inr (Namespace.alike_checkTimeouts _))
  | pass duration => exact .inr (.inr (Namespace.alike_pass _ duration))

theorem Sound.reaches {s t : System} (sound : s.Sound) (run : Reaches s t) : t.Sound := by
  induction run with
  | refl => exact sound
  | step _ last ih => exact ih.step last

theorem Reachable.reaches {config : Config} {s t : System} (reachable : Reachable config s)
    (run : Reaches s t) : Reachable config t := by
  obtain ⟨ns, created, before⟩ := reachable
  exact ⟨ns, created, before.trans run⟩

theorem Reachable.sound {config : Config} {s : System} (reachable : Reachable config s) :
    s.Sound := by
  obtain ⟨ns, created, run⟩ := reachable
  exact (sound_create created).reaches run

/-- What holds of a namespace that has just been created and is kept by every step holds at all times. -/
@[elab_as_elim]
theorem Reachable.induction {config : Config} {motive : (s : System) → Reachable config s → Prop}
    (create : ∀ {ns : Namespace} (created : Namespace.create config = .ok ns),
      motive { space := ns } ⟨ns, created, .refl⟩)
    (step : ∀ {s t : System} (before : Reachable config s) (last : Step s t), motive s before →
      motive t (before.reaches (.single last)))
    {s : System} (reachable : Reachable config s) : motive s reachable := by
  obtain ⟨ns, created, run⟩ := reachable
  induction run with
  | refl => exact create created
  | step before last ih => exact step ⟨ns, created, before⟩ last ih

end System
end LockManager
