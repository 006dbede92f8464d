import LockManager.Proofs.System
import LockManager.Wire.Response

set_option autoImplicit false

/-!
Runs told event by event: requests of peers and whatever happens meanwhile, in the order in which it
happens. A task that has been answered has no part in what the others do, so a run goes on with it as
it does without it.
-/

namespace LockManager

/-- The operation that a request of `peer` asks for. -/
def Request.operation (peer : Owner) : Request → Operation
  | .enqueue key mode policy clientSeq => .enqueue { key, mode, policy, owner := peer, clientSeq }
  | .convert h mode => .convert h mode
  | .cancel h => .cancel h
  | .glimpse key => .glimpse key peer

/-- Whatever is let through is what the request asks for. -/
theorem Namespace.operationOf_ok {ns : Namespace} {peer : Owner} {req : Request} {op : Operation}
    (through : ns.operationOf peer req = .ok op) : op = req.operation peer := by
  cases req with
  | enqueue key mode policy clientSeq => exact (Except.ok.inj through).symm
  | glimpse key => exact (Except.ok.inj through).symm
  | convert h mode =>
    simp only [operationOf] at through
    cases checked : ns.checkOwner peer h false <;> rw [checked] at through
    · cases through
    · exact (Except.ok.inj through).symm
  | cancel h =>
    simp only [operationOf] at through
    cases checked : ns.checkOwner peer h true <;> rw [checked] at through
    · cases through
    · exact (Except.ok.inj through).symm

inductive Event where
  /-- A request is let through. Those refused on account of the lock's owner do nothing. -/
  | request (peer : Owner) (req : Request)
  | take (i : TaskId)
  | carryOut (i : TaskId)
  | takeUp
  | finish (d : Delivery)
  | checkTimeouts
  | pass (duration : Nat)
  deriving DecidableEq, Repr

/-- The name of task `i` once there is another task at `j`. -/
def stepOver (j i : Nat) : Nat := if i < j then i else i + 1

theorem stepOver_ne (j i : Nat) : stepOver j i ≠ j := by
  unfold stepOver
  split <;> omega

theorem stepOver_inj {j i k : Nat} (same : stepOver j i = stepOver j k) : i = k := by
  unfold stepOver at same
  split at same <;> split at same <;> omega

theorem exists_stepOver {j i : Nat} (other : i ≠ j) : ∃ k, i = stepOver j k := by
  by_cases before : i < j
  · exact ⟨i, (if_pos before).symm⟩
  · refine ⟨i - 1, ?_⟩
    unfold stepOver
    split <;> omega

theorem stepOver_eq_iff {j i n : Nat} (place : j ≤ n) : stepOver j i = n + 1 ↔ i = n := by
  unfold stepOver
  split <;> omega

theorem stepOver_lt_iff {j i n : Nat} (place : j ≤ n) : stepOver j i < n + 1 ↔ i < n := by
  unfold stepOver
  split <;> omega

/-- The event once there is another task at `j`. -/
def Event.renumber (j : TaskId) : Event → Event
  | .take i => .take (stepOver j i)
  | .carryOut i => .carryOut (stepOver j i)
  | e => e

namespace System

/-- What becomes of the system by an event, if it can happen. -/
def on? (s : System) : Event → Option System
  | .request peer req => some (s.start (req.operation peer))
  | .take i => s.take? i
  | .carryOut i => s.carryOut? i
  | .takeUp => s.space.takeUp?.map fun ns => { s with space := ns }
  | .finish d =>
    if d ∈ s.space.dispatcher.deliveries then some { s with space := s.space.finish d } else none
  | .checkTimeouts => some { s with space := s.space.checkTimeouts.2 }
  | .pass duration => some { s with space := { s.space with clock := s.space.clock + duration } }

/-- One event after another. -/
def run? (s : System) (events : List Event) : Option System := events.foldlM on? s

variable {s s' t : System} {i j : TaskId} {p : Primitive}

theorem step_of_on {e : Event} (done : s.on? e = some t) : Step s t := by
  cases e with
  | request peer req => exact Option.some.inj done ▸ .start s _
  | take i => exact .take i done
  | carryOut i => exact .carryOut i done
  | takeUp =>
    obtain ⟨ns, taken, rfl⟩ := Option.map_eq_some_iff.mp done
    exact .takeUp taken
  | finish d =>
    simp only [on?] at done
    split at done
    · next busy => exact Option.some.inj done ▸ .finish busy
    · cases done
  | checkTimeouts => exact Option.some.inj done ▸ .checkTimeouts s
  | pass duration => exact Option.some.inj done ▸ .pass s duration

/-- Only a request makes a task. -/
theorem size_of_on {e : Event} (done : s.on? e = some t) :
    t.tasks.size = s.tasks.size ∨ ∃ peer req, e = .request peer req := by
  cases e with
  | request peer req => exact .inr ⟨peer, req, rfl⟩
  | take i =>
    simp only [on?, take?] at done
    split at done
    · split at done
      · exact .inl (Option.some.inj done ▸ Arena.size_modify ..)
      · cases done
    · cases done
  | carryOut i =>
    obtain ⟨stage, rest, q, -, -, -, tasks⟩ := Sound.carryOut_cases done
    exact .inl (tasks ▸ Arena.size_modify ..)
  | takeUp =>
    obtain ⟨ns, taken, rfl⟩ := Option.map_eq_some_iff.mp done
    exact .inl rfl
  | finish d =>
    simp only [on?] at done
    split at done
    · exact .inl (Option.some.inj done ▸ rfl)
    · cases done
  | checkTimeouts => exact .inl (Option.some.inj done ▸ rfl)
  | pass duration => exact .inl (Option.some.inj done ▸ rfl)

theorem reaches_run? {events : List Event} (done : s.run? events = some t) : Reaches s t := by
  induction events generalizing s with
  | nil => exact Option.some.inj done ▸ .refl
  | cons e events ih =>
    obtain ⟨u, first, rest⟩ := Option.bind_eq_some_iff.mp done
    exact (Reaches.single (step_of_on first)).trans (ih rest)

/-! ### A task that has been answered -/

theorem free_iff : s.free p = true ↔ ∀ i, p ∉ s.holds i := by
  unfold free
  simp only [List.all_eq_true, decide_eq_true_eq]
  constructor
  · intro all i held
    exact all i (List.mem_range.mpr (lt_size_of_holds held)) held
  · exact fun all i _ => all i

/-- `s'` is `s` with one task more, which has been answered and stands at `j`. -/
structure Beside (j : TaskId) (s s' : System) : Prop where
  space : s'.space = s.space
  place : j ≤ s.tasks.size
  size : s'.tasks.size = s.tasks.size + 1
  extra : (s'.task j).todo = []
  task : ∀ i, s'.task (stepOver j i) = s.task i

namespace Beside

/-- A task that has just been answered. -/
theorem of_alloc {task : Task} (done : task.todo = []) :
    Beside s.tasks.size s { s with tasks := s.tasks.alloc task } := by
  refine ⟨rfl, Nat.le_refl _, Arena.size_alloc .., ?_, fun i => ?_⟩
  · exact (congrArg Task.todo (Arena.get_alloc_size ..)).trans done
  · unfold System.task
    rw [Arena.get_alloc, if_neg (stepOver_ne _ i)]
    by_cases known : i < s.tasks.size
    · rw [stepOver, if_pos known]
    · rw [stepOver, if_neg known, Arena.get_beyond _ known,
        Arena.get_beyond _ fun below => known (Nat.lt_of_succ_lt below)]

theorem become (beside : Beside j s s') (ns : Namespace) :
    Beside j { s with space := ns } { s' with space := ns } :=
  ⟨rfl, beside.place, beside.size, beside.extra, beside.task⟩

theorem alloc (beside : Beside j s s') (task : Task) :
    Beside j { s with tasks := s.tasks.alloc task } { s' with tasks := s'.tasks.alloc task } := by
  have place := beside.place
  have size := beside.size
  refine ⟨beside.space, ?_, ?_, ?_, fun i => ?_⟩
  · exact Nat.le_trans place (Nat.le_of_lt (Nat.lt_of_lt_of_eq (Nat.lt_succ_self _)
      (Arena.size_alloc ..).symm))
  · simp only [Arena.size_alloc, size]
  · unfold System.task
    rw [Arena.get_alloc, if_neg (size ▸ Nat.ne_of_lt (Nat.lt_succ_of_le place))]
    exact beside.extra
  · unfold System.task
    rw [Arena.get_alloc, Arena.get_alloc, size]
    simp only [stepOver_eq_iff place]
    split
    · rfl
    · exact beside.task i

theorem modify (beside : Beside j s s') (i : TaskId) (f : Task → Task) :
    Beside j { s with tasks := s.tasks.modify i f }
      { s' with tasks := s'.tasks.modify (stepOver j i) f } := by
  have place := beside.place
  have size := beside.size
  refine ⟨beside.space, ?_, ?_, ?_, fun k => ?_⟩
  · exact Nat.le_trans place (Nat.le_of_eq (Arena.size_modify ..).symm)
  · simp only [Arena.size_modify, size]
  · unfold System.task
    rw [Arena.get_modify_of_ne _ _ (stepOver_ne j i)]
    exact beside.extra
  · have here : stepOver j i = stepOver j k ∧ stepOver j i < s'.tasks.size ↔
        i = k ∧ i < s.tasks.size := by
      refine and_congr ⟨stepOver_inj, congrArg _⟩ ?_
      rw [size]
      exact stepOver_lt_iff place
    unfold System.task
    rw [Arena.get_modify, Arena.get_modify]
    simp only [here, show s'.tasks.get (stepOver j k) = s.tasks.get k from beside.task k]

theorem role (beside : Beside j s s') : s'.role = s.role :=
  congrArg (·.config.role) beside.space

theorem holds (beside : Beside j s s') (i : TaskId) : s'.holds (stepOver j i) = s.holds i := by
  unfold System.holds
  rw [beside.task, beside.role]

theorem holds_extra (beside : Beside j s s') : s'.holds j = [] := by
  unfold System.holds Task.holds Task.need
  rw [beside.extra]

theorem free (beside : Beside j s s') (p : Primitive) : s'.free p = s.free p := by
  rw [Bool.eq_iff_iff, free_iff, free_iff]
  constructor
  · intro all i
    exact beside.holds i ▸ all (stepOver j i)
  · intro all i
    by_cases here : i = j
    · rw [here, beside.holds_extra]
      exact List.not_mem_nil
    · obtain ⟨k, rfl⟩ := exists_stepOver here
      exact beside.holds k ▸ all k

theorem prepared? (beside : Beside j s s') (i : TaskId) :
    s'.prepared? (stepOver j i) = s.prepared? i := by
  unfold System.prepared?
  rw [beside.task, beside.role, beside.space]

theorem start (beside : Beside j s s') (op : Operation) : Beside j (s.start op) (s'.start op) := by
  unfold System.start
  rw [beside.space]
  exact (beside.alloc _).become _

theorem take? (beside : Beside j s s') (i : TaskId) :
    Option.Rel (Beside j) (s.take? i) (s'.take? (stepOver j i)) := by
  have wants : s'.wants (stepOver j i) = s.wants i := by
    unfold System.wants
    rw [beside.task, beside.role]
  unfold System.take?
  rw [wants]
  split
  · next p _ =>
    rw [beside.free]
    split
    · refine .some ?_
      unfold hand
      have handed := beside.modify i (·.taking s.space p)
      rw [beside.space] at handed ⊢
      exact handed
    · exact .none
  · exact .none

theorem carryOut? (beside : Beside j s s') (i : TaskId) :
    Option.Rel (Beside j) (s.carryOut? i) (s'.carryOut? (stepOver j i)) := by
  unfold System.carryOut?
  rw [beside.task, beside.prepared?, beside.space]
  split
  · exact .some ((beside.modify i _).become _)
  · exact .none

/-- An event does the same whether the answered task is there or not. -/
theorem on? (beside : Beside j s s') (e : Event) :
    Option.Rel (Beside j) (s.on? e) (s'.on? (e.renumber j)) := by
  cases e with
  | request peer req => exact .some (beside.start _)
  | take i => exact beside.take? i
  | carryOut i => exact beside.carryOut? i
  | takeUp =>
    simp only [System.on?, Event.renumber, beside.space]
    cases s.space.takeUp? with
    | none => exact .none
    | some ns => exact .some (beside.become ns)
  | finish d =>
    simp only [System.on?, Event.renumber, beside.space]
    split
    · exact .some (beside.become _)
    · exact .none
  | checkTimeouts =>
    simp only [System.on?, Event.renumber, beside.space]
    exact .some (beside.become _)
  | pass duration =>
    simp only [System.on?, Event.renumber, beside.space]
    exact .some (beside.become _)

/-- So does a whole run. -/
theorem run? (beside : Beside j s s') (events : List Event) :
    (s'.run? (events.map (Event.renumber j))).map System.space = (s.run? events).map System.space := by
  induction events generalizing s s' with
  | nil => exact congrArg some beside.space
  | cons e events ih =>
    simp only [System.run?, List.map_cons, List.foldlM_cons]
    have next := beside.on? e
    generalize s.on? e = after at next ⊢
    generalize s'.on? (e.renumber j) = after' at next ⊢
    cases next with
    | none => rfl
    | some beside => exact ih beside

end Beside
end System
end LockManager
