import LockManager.Proofs.References

set_option autoImplicit false

/-!
Whoever keeps the queues of a lock's resource keeps the right ones. The binding is read before the
queues are taken, and much may happen in between and afterwards; but on the server side no lock moves,
and on the client side whoever moves one needs the binding, which is kept as long as the queues.
-/

namespace LockManager
namespace System

/-- Task `i` keeps the queues of `r`, which it has taken for lock `l`. -/
def Guards (s : System) (i : TaskId) (l : LockId) (r : ResourceId) : Prop :=
  (∃ side, (s.task i).need s.role = .guard l side) ∧ (s.task i).place = .inside r

variable {config : Config} {s t : System} {i : TaskId} {l : LockId} {r : ResourceId}

namespace Guards

theorem lt_size (guards : s.Guards i l r) : i < s.tasks.size := by
  obtain ⟨⟨side, what⟩, -⟩ := guards
  unfold Task.need at what
  split at what
  · next stage rest todo => exact lt_size_of_todo (todo ▸ List.mem_cons_self)
  · cases what

theorem congr (guards : s.Guards i l r) (task : t.task i = s.task i) (role : t.role = s.role) :
    t.Guards i l r := by
  unfold Guards
  rw [task, role]
  exact guards

theorem wants (guards : s.Guards i l r) : s.wants i = none := by
  obtain ⟨⟨side, what⟩, place⟩ := guards
  unfold System.wants Task.wants
  rw [what, place]

/-- With the queues goes the binding on the client side. -/
theorem holds (guards : s.Guards i l r) (sound : s.Sound) : s.holds i =
    match s.role with
    | .server => [.queues r]
    | .client => [.queues r, .binding l] := by
  obtain ⟨⟨side, what⟩, place⟩ := guards
  obtain ⟨-, rfl⟩ := sound.guard what
  unfold System.holds Task.holds
  rw [what, place]
  cases s.role <;> rfl

/-- What is kept stays the same until the task has done what it has taken it for. -/
theorem step (guards : s.Guards i l r) (sound : s.Sound) (step : Step s t) :
    t.Guards i l r ∨ s.carryOut? i = some t := by
  have old := guards.lt_size
  cases step with
  | start op =>
    have begun := Task.begun_start sound.space op
    have same := task_start_of_ne op (Nat.ne_of_lt old)
    exact .inl (guards.congr same (congrArg Config.role begun.config))
  | hold found =>
    have task : ∀ u, (s.tasks.alloc u).get i = s.tasks.get i := fun u =>
      (s.tasks.get_alloc u i).trans (if_neg (Nat.ne_of_lt old))
    exact .inl (guards.congr (task _) rfl)
  | take j taken =>
    obtain ⟨p, wanted, -, rfl⟩ := take?_eq taken
    have other : j ≠ i := by
      rintro rfl
      rw [guards.wants] at wanted
      cases wanted
    exact .inl (guards.congr (task_of_ne rfl other.symm) rfl)
  | carryOut j done =>
    by_cases same : j = i
    · exact .inr (same ▸ done)
    · obtain ⟨stage, rest, q, todo, prepared, space, tasks⟩ := Sound.carryOut_cases done
      have effect := sound.effect todo prepared
      have config := (congrArg Namespace.config space).trans effect.config
      have role : t.role = s.role := congrArg Config.role config
      exact .inl (guards.congr (task_of_ne tasks (Ne.symm same)) role)
  | takeUp taken =>
    have same := Namespace.alike_takeUp taken
    exact .inl (guards.congr rfl (congrArg (fun b => b.config.role) same.ledger))
  | @finish d busy =>
    have same := Namespace.alike_finish s.space d
    exact .inl (guards.congr rfl (congrArg (fun b => b.config.role) same.ledger))
  | checkTimeouts =>
    have same := Namespace.alike_checkTimeouts s.space
    exact .inl (guards.congr rfl (congrArg (fun b => b.config.role) same.ledger))
  | pass duration => exact .inl (guards.congr rfl rfl)

end Guards

/-- Whoever keeps queues for a lock keeps, at every moment, the queues of the resource that the lock is
bound to and whose key it carries. Nobody else has any of what is kept for that, and it is let go only
by whoever has taken it. -/
theorem guarded_as_bound (reachable : Reachable config s) (guards : s.Guards i l r) :
    (s.space.lock l).resource = r ∧ (s.space.resource r).key = (s.space.lock l).key ∧
      .queues r ∈ s.holds i ∧ (s.role = .client → .binding l ∈ s.holds i) ∧
      (∀ p ∈ s.holds i, ∀ j, p ∈ s.holds j → j = i) ∧
      ∀ t, Step s t → t.Guards i l r ∨ s.carryOut? i = some t := by
  have sound := reachable.sound
  obtain ⟨⟨side, what⟩, place⟩ := guards
  have guards : s.Guards i l r := ⟨⟨side, what⟩, place⟩
  have site : (s.task i).site? = some r := by
    unfold Task.site?
    rw [place]
  have bound := sound.bound i l side r what site
  have holds := guards.holds sound
  refine ⟨bound, ?_, ?_, fun client => ?_, fun p mine j theirs => sound.alone j i p theirs mine,
    fun t step => guards.step sound step⟩
  · rw [reachable.counted.named l (sound.guard what).1, bound]
  · rw [holds]
    cases s.role <;> exact List.mem_cons_self
  · rw [holds, client]
    exact List.mem_cons_of_mem _ List.mem_cons_self

/-- On the client's side, a lock is kept where it is; to bind it to another resource has been asked for
in between. -/
def rebindKeptOut : System :=
  (((fresh { role := .client }).follow
      [.start (.create { key := ⟨10, 0⟩, mode := .protectedRead, owner := ⟨"a"⟩ })]).startHold 0
    .client).follow
    [.take 1, .start (.rebind ⟨0, 1⟩ ⟨20, 0⟩), .take 2, .take 1]

theorem reachable_rebindKeptOut : Reachable { role := .client } rebindKeptOut := by
  refine ((reachable_follow rfl _).reaches (.single (.hold (h := ⟨0, 1⟩) ?_))).reaches
    (reaches_follow _ _)
  decide +kernel

/-- The lock stays where it is until the queues are let go. -/
theorem guarded_as_bound_rebind :
    rebindKeptOut.Guards 1 0 0 ∧ rebindKeptOut.wants 2 = some (.binding 0) ∧
      rebindKeptOut.free (.binding 0) = false ∧ (rebindKeptOut.space.lock 0).resource = 0 ∧
      (rebindKeptOut.space.resource 0).key = (rebindKeptOut.space.lock 0).key ∧
      (rebindKeptOut.space.lock 0).key = ⟨10, 0⟩ := by
  have guards : rebindKeptOut.Guards 1 0 0 := ⟨⟨.client, by decide +kernel⟩, by decide +kernel⟩
  obtain ⟨bound, name, -⟩ := guarded_as_bound reachable_rebindKeptOut guards
  exact ⟨guards, by decide +kernel, by decide +kernel, bound, name, by decide +kernel⟩

/-- If the binding is let go as on the server's side, the lock can move before its queues are taken. -/
example :
    let s := (((fresh { role := .client }).follow
        [.start (.create { key := ⟨10, 0⟩, mode := .protectedRead, owner := ⟨"a"⟩ })]).startHold 0
      .server).follow
      [.take 1, .start (.rebind ⟨0, 1⟩ ⟨20, 0⟩), .take 2, .carryOut 2, .take 1]
    (s.task 1).place = .inside 0 ∧ (s.space.lock 0).resource = 1 := by decide +kernel

end System
end LockManager
