import LockManager.Proofs.Parting
import LockManager.Proofs.References

set_option autoImplicit false

/-!
One operation with no other in progress. It finds free whatever it has to take, so it is carried out
stage by stage to its end, and comes to what it comes to when it is run as a whole.
-/

namespace LockManager

namespace Stage

/-- The stage waits for nothing but what other tasks hold. -/
def Prompt : Stage → Prop
  | .awaitRetired _ | .close => False
  | _ => True

/-- It matters which queues are held only if they are those of a lock's resource. -/
theorem carryOut_congr {ns : Namespace} {r q : ResourceId} {stage : Stage}
    (same : ∀ l side, stage.need ns.config.role = .guard l side → r = q) :
    stage.carryOut ns r = stage.carryOut ns q := by
  cases stage with
  | submit l _ | changeMode l _ | leave l | lookAround l | hold l _ => rw [same l _ rfl]
  | _ => rfl

end Stage

/-- The operation concerns a single lock's place in the queues, or what is cached. -/
def Operation.Ordinary : Operation → Prop
  | .enqueue _ | .enqueueLock _ | .convert _ _ | .cancel _ | .glimpse _ _ => True
  | _ => False

namespace Namespace

/-- No operation is in progress. No lock is on its way out, no reference is in anyone's hands, and
whoever is not done with can be told something; after a shutdown no handle names anybody. -/
structure Calm (ns : Namespace) : Prop where
  sound : ns.Sound
  stays : ∀ l, l < ns.locks.size → (ns.lock l).state ≠ .canceling
  counted : ns.Counted 0 fun _ => False
  names : ns.Names
  numbered : ns.handles.Numbered
  heard : ∀ l, ns.Alive l → (ns.lock l).suppressed = false
  ended : ns.stopping = true → ∀ h, ns.handles.get? h = none
  opened : ns.dispatcher.closed = true → ns.stopping = true

/-- The stages are carried out one after another, with nothing in between. -/
inductive Runs : Namespace → List Stage → Namespace → Prop where
  | done (ns : Namespace) : Runs ns [] ns
  | next {ns ns' : Namespace} {stage : Stage} {rest : List Stage} (r : ResourceId)
      (bound : ∀ l side, stage.need ns.config.role = .guard l side → (ns.lock l).resource = r)
      (prompt : stage.Prompt)
      (later : Runs (stage.carryOut ns r).space ((stage.carryOut ns r).next ++ rest) ns') :
      Runs ns (stage :: rest) ns'

/-- The stages can be carried out one after another, and `Q` holds before each of them and at the end,
whenever others could look. -/
inductive Throughout (Q : Namespace → Prop) : Namespace → List Stage → Prop where
  | done {ns : Namespace} (now : Q ns) : Throughout Q ns []
  | next {ns : Namespace} {stage : Stage} {rest : List Stage} (r : ResourceId)
      (bound : ∀ l side, stage.need ns.config.role = .guard l side → (ns.lock l).resource = r)
      (now : Q ns)
      (later : Throughout Q (stage.carryOut ns r).space ((stage.carryOut ns r).next ++ rest)) :
      Throughout Q ns (stage :: rest)

/-- The stages can be carried out one after another, and an operation that had come to `answer` before has
come to `o` then. -/
inductive ComesTo (o : Outcome) : Namespace → List Stage → Option Outcome → Prop where
  | done (ns : Namespace) : ComesTo o ns [] (some o)
  | next {ns : Namespace} {stage : Stage} {rest : List Stage} {answer : Option Outcome} (r : ResourceId)
      (bound : ∀ l side, stage.need ns.config.role = .guard l side → (ns.lock l).resource = r)
      (later : ComesTo o (stage.carryOut ns r).space ((stage.carryOut ns r).next ++ rest)
        ((stage.carryOut ns r).outcome <|> answer)) :
      ComesTo o ns (stage :: rest) answer

variable {ns ns' : Namespace} {l : LockId}

theorem Throughout.now {Q : Namespace → Prop} {todo : List Stage} (all : Throughout Q ns todo) :
    Q ns := by
  cases all with
  | done now => exact now
  | next r bound now later => exact now

theorem Runs.eq_of_done (runs : Runs ns [] ns') : ns' = ns := by
  cases runs
  rfl

namespace Calm

theorem settled (calm : ns.Calm) (alive : ns.Alive l) :
    (ns.lock l).Settled ((ns.resource (ns.lock l).resource).queues.of l) :=
  calm.sound.settled alive (calm.stays l alive.1)

theorem mark?_ne_none (calm : ns.Calm) (alive : ns.Alive l) : ns.mark? l ≠ none := by
  have edge := (calm.settled alive).cancelable
  unfold mark?
  rw [Lock.advance?_of_allows edge]
  simp

theorem named (calm : ns.Calm) {h : Handle} (found : ns.lookup h = .ok l) :
    ns.Alive l ∧ ns.stopping = false := by
  unfold lookup at found
  cases there : ns.handles.get? h with
  | none => simp [there] at found
  | some k =>
    obtain rfl : k = l := by simpa [there] using found
    refine ⟨(calm.names h k there).1, Bool.eq_false_iff.mpr fun stopping => ?_⟩
    rw [calm.ended stopping] at there
    cases there

theorem live (calm : ns.Calm) {h : Handle} (status : ns.handles.status h = .live l) :
    ns.Alive l ∧ ns.stopping = false := by
  have there := calm.numbered.status_eq_live.mp status
  refine calm.named (h := h) ?_
  simp only [lookup, there]

theorem open_of_running (calm : ns.Calm) (running : ns.stopping = false) :
    ns.dispatcher.closed = false := by
  apply Bool.eq_false_iff.mpr
  intro closed
  rw [calm.opened closed] at running
  cases running

end Calm

theorem Runs.append {first second : List Stage} {ns'' : Namespace} (runs : Runs ns first ns')
    (more : Runs ns' second ns'') : Runs ns (first ++ second) ns'' := by
  induction runs with
  | done ns => exact more
  | next r bound prompt later ih =>
    refine .next r bound prompt ?_
    have done := ih more
    rw [List.append_assoc] at done
    exact done

/-! ### Operations as runs of stages -/

theorem runs_releasing (ns : Namespace) (r : ResourceId) (outcome : Option Outcome) :
    Runs (Progress.releasing ns r outcome).space ((Progress.releasing ns r outcome).next ++ [])
      (ns.release r) := by
  unfold Progress.releasing release
  dsimp only
  split
  · exact .next r (by simp [Stage.need]) trivial (.done _)
  · exact .done _

theorem runs_leave (ns : Namespace) (l : LockId) :
    Runs ns [.leave l] ((ns.leave l (ns.lock l).resource).release (ns.lock l).resource) := by
  refine .next (ns.lock l).resource (fun k side what => ?_) trivial (runs_releasing ..)
  cases what
  rfl

/-- A cancel waits for nobody if it is the first or need not wait. -/
theorem runs_mark {join : Bool} (first : join = true → ns.mark? l ≠ none) :
    Runs ns [.mark l join] (ns.cancelLock l) := by
  refine .next 0 (by simp [Stage.need]) trivial ?_
  unfold cancelLock
  simp only [Stage.carryOut]
  cases marked : ns.mark? l with
  | some ns' => exact runs_leave ns' l
  | none =>
    cases join with
    | true => exact absurd marked (first rfl)
    | false => exact .done _

theorem runs_submit (ns : Namespace) (l : LockId) (discard : Bool) :
    Runs ns [.submit l discard] (match ns.submit l (ns.lock l).resource with
      | .ok (_, ns) => ns
      | .error _ => if discard then (ns.silence [l]).cancelLock l else ns) := by
  refine .next (ns.lock l).resource (fun k side what => ?_) trivial ?_
  · cases what
    rfl
  · simp only [Stage.carryOut]
    cases ns.submit l (ns.lock l).resource with
    | ok done => exact .done _
    | error e =>
      cases discard with
      | true => exact runs_mark (by simp)
      | false => exact .done _

theorem runs_changeMode (ns : Namespace) (l : LockId) (mode : Mode) :
    Runs ns [.changeMode l mode] (match ns.changeMode l mode (ns.lock l).resource with
      | .ok (_, ns) => ns
      | .error _ => ns) := by
  refine .next (ns.lock l).resource (fun k side what => ?_) trivial ?_
  · cases what
    rfl
  · simp only [Stage.carryOut]
    cases ns.changeMode l mode (ns.lock l).resource <;> exact .done _

theorem comesTo_releasing (ns : Namespace) (r : ResourceId) (o : Outcome) :
    ComesTo o (Progress.releasing ns r (some o)).space ((Progress.releasing ns r (some o)).next ++ [])
      (some o) := by
  simp only [Progress.releasing]
  split
  · exact .next r (by simp [Stage.need]) (.done _)
  · exact .done _

/-- A lock that is let in is answered for by that alone, and so is one that changes its mode. -/
theorem comesTo_submit {reply : Reply}
    (done : ns.submit l (ns.lock l).resource = .ok (reply, ns')) (discard : Bool) :
    ComesTo (.ok (.enqueued reply)) ns [.submit l discard] none := by
  refine .next (ns.lock l).resource (fun k side what => ?_) ?_
  · cases what
    rfl
  · simp only [Stage.carryOut, done]
    exact .done ns'

theorem comesTo_changeMode {mode : Mode} {status : ConvertStatus}
    (done : ns.changeMode l mode (ns.lock l).resource = .ok (status, ns')) :
    ComesTo (.ok (.converted status)) ns [.changeMode l mode] none := by
  refine .next (ns.lock l).resource (fun k side what => ?_) ?_
  · cases what
    rfl
  · simp only [Stage.carryOut, done]
    exact .done ns'

theorem runs_enqueue (ns : Namespace) (req : LockRequest) :
    Runs (Task.start ns (.enqueue req)).2 (Task.start ns (.enqueue req)).1.todo
      (ns.perform (.enqueue req)).2 := by
  unfold Task.start perform enqueue
  dsimp only
  cases found : ns.register req with
  | error e => exact .done _
  | ok answer =>
    obtain ⟨l | l, ns'⟩ := answer
    · have runs := ns'.runs_submit l true
      simp only
      cases done : ns'.submit l (ns'.lock l).resource <;> simp only [done] at runs ⊢ <;>
        exact runs
    · exact .done _

theorem runs_enqueueLock (ns : Namespace) (h : Handle) :
    Runs (Task.start ns (.enqueueLock h)).2 (Task.start ns (.enqueueLock h)).1.todo
      (ns.perform (.enqueueLock h)).2 := by
  unfold Task.start perform enqueueLock
  dsimp only
  cases found : ns.lookup h with
  | error e => exact .done _
  | ok l =>
    have runs := ns.runs_submit l false
    simp only
    cases done : ns.submit l (ns.lock l).resource <;> simp only [done] at runs ⊢ <;> exact runs

theorem runs_convert (ns : Namespace) (h : Handle) (mode : Mode) :
    Runs (Task.start ns (.convert h mode)).2 (Task.start ns (.convert h mode)).1.todo
      (ns.perform (.convert h mode)).2 := by
  unfold Task.start perform convert
  dsimp only
  cases running : ns.ensureRunning with
  | error e => exact .done _
  | ok _ =>
    cases found : ns.lookup h with
    | error e => exact .done _
    | ok l =>
      have runs := ns.runs_changeMode l mode
      simp only
      cases done : ns.changeMode l mode (ns.lock l).resource <;> simp only [done] at runs ⊢ <;>
        exact runs

theorem runs_cancel {h : Handle} (first : ∀ l, ns.handles.status h = .live l → ns.mark? l ≠ none) :
    Runs (Task.start ns (.cancel h)).2 (Task.start ns (.cancel h)).1.todo
      (ns.perform (.cancel h)).2 := by
  unfold Task.start perform cancel
  dsimp only
  cases status : ns.handles.status h with
  | live l => exact runs_mark fun _ => first l status
  | retired => exact .done _
  | unknown => exact .done _

theorem runs_glimpse (ns : Namespace) (k : Key) (requester : Owner) :
    Runs (Task.start ns (.glimpse k requester)).2 (Task.start ns (.glimpse k requester)).1.todo
      (ns.perform (.glimpse k requester)).2 := by
  unfold Task.start perform glimpse
  dsimp only
  cases running : ns.ensureRunning with
  | error e => exact .done _
  | ok _ =>
    cases there : ns.find? k with
    | none => exact .done _
    | some found =>
      obtain ⟨r, ns'⟩ := found
      refine .next r (by simp [Stage.need]) trivial ?_
      simp only [Stage.carryOut]
      exact runs_releasing ..

/-- With no other in progress, an operation is the run of its stages. -/
theorem Calm.runs_perform (calm : ns.Calm) {op : Operation} (ordinary : op.Ordinary) :
    Runs (Task.start ns op).2 (Task.start ns op).1.todo (ns.perform op).2 := by
  cases op with
  | enqueue req => exact runs_enqueue ns req
  | enqueueLock h => exact runs_enqueueLock ns h
  | convert h mode => exact runs_convert ns h mode
  | cancel h => exact runs_cancel fun l live => calm.mark?_ne_none (calm.live live).1
  | glimpse k requester => exact runs_glimpse ns k requester
  | _ => exact ordinary.elim

end Namespace

namespace System

variable {s t : System} {i : TaskId}

/-! ### Being alone -/

/-- Nobody else has anything left to do. -/
def Lone (s : System) (i : TaskId) : Prop := ∀ j, j ≠ i → (s.task j).todo = []

/-- The move is one of task `i`. -/
def Move.By (i : TaskId) (m : Move) : Prop := m = .take i ∨ m = .carryOut i

/-- The operation has been begun and has come to its end while nothing else has happened. -/
def Carries (s : System) (op : Operation) (t : System) : Prop :=
  t.quiet = true ∧ ∃ moves : List Move, (∀ m ∈ moves, m.By s.tasks.size) ∧
    t = (s.start op).follow moves

theorem Carries.reaches {op : Operation} (carries : s.Carries op t) : Reaches s t := by
  obtain ⟨-, moves, -, rfl⟩ := carries
  exact (Reaches.single (.start s op)).trans (reaches_follow _ moves)

/-- The operation has been begun, and nothing has happened since but that it has been carried on. -/
def Amid (s : System) (op : Operation) (u : System) : Prop :=
  ∃ moves : List Move, (∀ m ∈ moves, m.By s.tasks.size) ∧ u = (s.start op).follow moves

/-- A move of a task carries out the stage that comes next, or does nothing but take a primitive. -/
theorem move_cases (s : System) {m : Move} (mine : m.By i) :
    (∃ stage rest r, (s.task i).todo = stage :: rest ∧ s.prepared? i = some r ∧
      (s.move m).space = (stage.carryOut s.space r).space ∧
      ((s.move m).task i).todo = (stage.carryOut s.space r).next ++ rest ∧
      ((s.move m).task i).outcome = ((stage.carryOut s.space r).outcome <|> (s.task i).outcome)) ∨
    (s.move m).space = s.space ∧ ((s.move m).task i).todo = (s.task i).todo ∧
      ((s.move m).task i).outcome = (s.task i).outcome := by
  rcases mine with rfl | rfl
  · right
    simp only [move]
    cases taken : s.take? i with
    | none => exact ⟨rfl, rfl, rfl⟩
    | some t =>
      obtain ⟨p, -, -, rfl⟩ := take?_eq taken
      exact ⟨rfl, s.todo_hand i p i, s.outcome_hand i p i⟩
  · simp only [move]
    cases done : s.carryOut? i with
    | none => exact .inr ⟨rfl, rfl, rfl⟩
    | some t =>
      obtain ⟨stage, rest, q, todo, prepared, space, tasks⟩ := Sound.carryOut_cases done
      have old : i < s.tasks.size := lt_size_of_todo (todo ▸ List.mem_cons_self)
      rw [Option.getD_some, task_of_modify tasks old]
      exact .inl ⟨stage, rest, q, todo, prepared, space, rfl, rfl⟩

/-! ### What it comes to -/

/-- What holds of the namespace, of the stages that are left and of the outcome still does after a move, if
it does after the next stage whenever that is carried out with the right queues held. -/
theorem Sound.move_along (sound : s.Sound) {R : Namespace → List Stage → Option Outcome → Prop}
    (onward : ∀ ns stage rest outcome r, R ns (stage :: rest) outcome →
      (∀ l side, stage.need ns.config.role = .guard l side → (ns.lock l).resource = r) →
        R (stage.carryOut ns r).space ((stage.carryOut ns r).next ++ rest)
          ((stage.carryOut ns r).outcome <|> outcome))
    (now : R s.space (s.task i).todo (s.task i).outcome) {m : Move} (mine : m.By i) :
    R (s.move m).space ((s.move m).task i).todo ((s.move m).task i).outcome := by
  rcases s.move_cases mine with ⟨stage, rest, q, todo, prepared, space, left, came⟩ |
    ⟨space, left, came⟩
  · rw [todo] at now
    rw [space, left, came]
    exact onward _ _ _ _ q now (sound.ready todo prepared).bound
  · rw [space, left, came]
    exact now

theorem Sound.follow_along (sound : s.Sound) {R : Namespace → List Stage → Option Outcome → Prop}
    (onward : ∀ ns stage rest outcome r, R ns (stage :: rest) outcome →
      (∀ l side, stage.need ns.config.role = .guard l side → (ns.lock l).resource = r) →
        R (stage.carryOut ns r).space ((stage.carryOut ns r).next ++ rest)
          ((stage.carryOut ns r).outcome <|> outcome))
    (now : R s.space (s.task i).todo (s.task i).outcome) {moves : List Move}
    (mine : ∀ m ∈ moves, m.By i) :
    R (s.follow moves).space ((s.follow moves).task i).todo ((s.follow moves).task i).outcome := by
  unfold follow
  induction moves generalizing s with
  | nil => exact now
  | cons m moves ih =>
    have after := sound.move_along onward now (mine m List.mem_cons_self)
    exact ih (sound.reaches (s.reaches_move m)) after fun m later =>
      mine m (List.mem_cons_of_mem _ later)

theorem Sound.runs_follow (sound : s.Sound) {ns : Namespace}
    (runs : Namespace.Runs s.space (s.task i).todo ns) {moves : List Move}
    (mine : ∀ m ∈ moves, m.By i) :
    Namespace.Runs (s.follow moves).space ((s.follow moves).task i).todo ns := by
  refine sound.follow_along (R := fun ns' todo _ => Namespace.Runs ns' todo ns)
    (fun ns' stage rest _ q runs held => ?_) runs mine
  cases runs with
  | next r bound prompt later =>
    have same : stage.carryOut ns' r = stage.carryOut ns' q :=
      Stage.carryOut_congr fun l side what => (bound l side what).symm.trans (held l side what)
    exact same ▸ later

theorem Sound.throughout_follow (sound : s.Sound) {Q : Namespace → Prop}
    (all : Namespace.Throughout Q s.space (s.task i).todo) {moves : List Move}
    (mine : ∀ m ∈ moves, m.By i) : Q (s.follow moves).space := by
  refine (sound.follow_along (R := fun ns todo _ => Namespace.Throughout Q ns todo)
    (fun ns stage rest _ q all held => ?_) all mine).now
  cases all with
  | next r bound now later =>
    have same : stage.carryOut ns r = stage.carryOut ns q :=
      Stage.carryOut_congr fun l side what => (bound l side what).symm.trans (held l side what)
    exact same ▸ later

/-! ### Coming to an end -/

theorem free_of_lone (lone : s.Lone i) {p : Primitive} (lacks : p ∉ s.holds i) :
    s.free p = true := by
  apply List.all_eq_true.mpr
  intro j _
  apply decide_eq_true
  by_cases same : j = i
  · rwa [same]
  · unfold holds Task.holds Task.need
    simp [lone j same]

/-- How far a task has got when it has taken the primitive. -/
def place (ns : Namespace) : Primitive → Place
  | .binding l => .bound (ns.lock l).resource
  | .queues r => .inside r

/-- Task `i` of `t` is alone and has got as far as `place` towards the stages `todo`. -/
structure At (t : System) (i : TaskId) (ns : Namespace) (todo : List Stage) (place : Place) :
    Prop where
  lone : t.Lone i
  space : t.space = ns
  todo : (t.task i).todo = todo
  place : (t.task i).place = place

namespace At

variable {ns : Namespace} {stage : Stage} {rest : List Stage} {place : Place}

theorem need (here : At s i ns (stage :: rest) place) :
    (s.task i).need s.role = stage.need ns.config.role :=
  (Sound.need_of_todo here.todo).trans (congrArg (fun ns => stage.need ns.config.role) here.space)

/-- Whoever is alone takes what it wants. -/
theorem take (here : At s i ns (stage :: rest) place) {p : Primitive} (wants : s.wants i = some p)
    (lacks : p ∉ s.holds i) :
    ∃ t, s.move (.take i) = t ∧ At t i ns (stage :: rest) (System.place ns p) := by
  have old : i < s.tasks.size := lt_size_of_todo (here.todo ▸ List.mem_cons_self)
  have taking : (s.hand i p).task i = (s.task i).taking s.space p :=
    (s.task_hand i p i).trans (if_pos ⟨rfl, old⟩)
  refine ⟨s.hand i p, ?_, fun j other => ?_, here.space, ?_, ?_⟩
  · simp only [move, take?, wants, free_of_lone here.lone lacks, if_true, Option.getD_some]
  · exact (s.todo_hand i p j).trans (here.lone j other)
  · exact (s.todo_hand i p i).trans here.todo
  · rw [taking, here.space]
    cases p <;> rfl

/-- Whoever is alone can take one thing after another until it has all that its next stage needs. -/
theorem ready (here : At s i ns (stage :: rest) .outside) (prompt : stage.Prompt) :
    ∃ n t q, s.follow (.replicate n (.take i)) = t ∧ At t i ns (stage :: rest) q ∧
      ∃ r, t.prepared? i = some r := by
  have lacks (p : Primitive) : p ∉ s.holds i := by
    rw [System.holds, Task.holds_outside _ here.place]
    exact List.not_mem_nil
  have need := here.need
  cases what : stage.need ns.config.role with
  | nothing => exact ⟨0, s, _, rfl, here, 0, by simp only [prepared?, need, what]⟩
  | queues r =>
    obtain ⟨t, first, there⟩ := here.take (p := .queues r)
      (by simp only [System.wants, Task.wants, need, what, here.place]) (lacks _)
    exact ⟨1, t, _, first, there, r,
      by simp only [prepared?, there.need, what, there.place, System.place]⟩
  | binding l =>
    obtain ⟨t, first, there⟩ := here.take (p := .binding l)
      (by simp only [System.wants, Task.wants, need, what, here.place]) (lacks _)
    exact ⟨1, t, _, first, there, (ns.lock l).resource,
      by simp only [prepared?, there.need, what, there.place, System.place]⟩
  | guard l side =>
    obtain ⟨t, first, there⟩ := here.take (p := .binding l)
      (by simp only [System.wants, Task.wants, need, what, here.place]) (lacks _)
    obtain ⟨u, second, done⟩ := there.take (p := .queues (ns.lock l).resource)
      (by simp only [System.wants, Task.wants, there.need, what, there.place, System.place])
      (by
        simp only [System.holds, Task.holds, there.need, what, there.place, System.place]
        cases side <;> simp)
    refine ⟨2, u, _, ?_, done, (ns.lock l).resource, ?_⟩
    · rw [← second, ← first]
      rfl
    · simp only [prepared?, done.need, what, done.place, System.place]
  | retirement l => cases stage <;> simp_all [Stage.need, Stage.Prompt]
  | idleness => cases stage <;> simp_all [Stage.need, Stage.Prompt]

theorem carryOut (here : At s i ns (stage :: rest) place) {r : ResourceId}
    (prepared : s.prepared? i = some r) :
    ∃ t, s.move (.carryOut i) = t ∧ At t i (stage.carryOut ns r).space
      ((stage.carryOut ns r).next ++ rest) .outside := by
  have old : i < s.tasks.size := lt_size_of_todo (here.todo ▸ List.mem_cons_self)
  obtain ⟨t, done⟩ : ∃ t, s.carryOut? i = some t := by
    simp only [carryOut?, here.todo, prepared]
    exact ⟨_, rfl⟩
  obtain ⟨stage', rest', r', todo, prepared', space, tasks⟩ := Sound.carryOut_cases done
  obtain ⟨rfl, rfl⟩ := List.cons.inj (here.todo.symm.trans todo)
  obtain rfl := Option.some.inj (prepared.symm.trans prepared')
  refine ⟨t, by simp only [move, done, Option.getD_some], fun j other => ?_, ?_, ?_, ?_⟩
  · rw [task_of_ne tasks other]
    exact here.lone j other
  · rw [space, here.space]
  · rw [task_of_modify tasks old, here.space]
  · rw [task_of_modify tasks old]

theorem quiet (here : At s i ns [] place) : s.quiet = true := by
  apply List.all_eq_true.mpr
  intro j _
  have none : (s.task j).todo = [] := by
    by_cases same : j = i
    · rw [same, here.todo]
    · exact here.lone j same
  rw [Task.finished, none]
  rfl

/-- Whoever is alone gets through stages that wait for nobody. -/
theorem onto {first : List Stage} {ns' : Namespace} (here : At s i ns (first ++ rest) .outside)
    (sound : s.Sound) (runs : Namespace.Runs ns first ns') :
    ∃ moves : List Move, (∀ m ∈ moves, m.By i) ∧ At (s.follow moves) i ns' rest .outside := by
  induction runs generalizing s with
  | done ns => exact ⟨[], List.forall_mem_nil _, here⟩
  | @next ns ns' stage first r bound prompt later ih =>
    rw [List.cons_append] at here
    obtain ⟨n, t, q, taken, there, r', prepared⟩ := here.ready prompt
    obtain ⟨u, done, on⟩ := there.carryOut prepared
    have sound' : t.Sound := sound.reaches (taken ▸ s.reaches_follow _)
    have same : stage.carryOut ns r' = stage.carryOut ns r := by
      refine Stage.carryOut_congr fun l side what => ?_
      obtain rfl := there.space
      exact (sound'.bound_of_prepared there.todo prepared what).symm.trans (bound l side what)
    rw [same, ← List.append_assoc] at on
    obtain ⟨moves, mine, ends⟩ := ih on (sound'.reaches (done ▸ t.reaches_move _))
    refine ⟨.replicate n (.take i) ++ .carryOut i :: moves, fun m member => ?_, ?_⟩
    · rcases List.mem_append.mp member with before | after
      · exact .inl (List.eq_of_mem_replicate before)
      · rcases List.mem_cons.mp after with rfl | later
        · exact .inr rfl
        · exact mine m later
    · unfold follow at taken ends ⊢
      rw [List.foldl_append, List.foldl_cons, taken, done]
      exact ends

/-- Whoever is alone comes to its end. -/
theorem ends (here : At s i ns rest .outside) (sound : s.Sound) {ns' : Namespace}
    (runs : Namespace.Runs ns rest ns') :
    ∃ moves : List Move, (∀ m ∈ moves, m.By i) ∧ (s.follow moves).quiet = true := by
  rw [← rest.append_nil] at here
  obtain ⟨moves, mine, there⟩ := here.onto sound runs
  exact ⟨moves, mine, there.quiet⟩

end At

theorem Sound.at_start (sound : s.Sound) (quiet : s.quiet = true) (op : Operation) :
    At (s.start op) s.tasks.size (Task.start s.space op).2 (Task.start s.space op).1.todo
      .outside := by
  have mine := s.task_start op
  refine ⟨fun j other => ?_, rfl, congrArg Task.todo mine, ?_⟩
  · rw [task_start_of_ne op other]
    exact todo_of_quiet quiet j
  · exact (congrArg Task.place mine).trans (Task.begun_start sound.space op).place

theorem Reachable.calm {config : Config} (reachable : Reachable config s) (quiet : s.quiet = true) :
    s.space.Calm := by
  have sound := reachable.sound
  have parting := reachable.parting
  have names := reachable.names
  have gone {l : LockId} (alive : s.space.Alive l) (doomed : Doomed s l) : False :=
    sound.gone_of_doomed quiet alive.1 doomed alive
  refine ⟨sound.space, fun l known => sound.ne_canceling quiet known, ?_, names,
    reachable.numbered, fun l alive => ?_, fun stopping h => ?_, parting.closed⟩
  · have counted := reachable.counted
    rw [System.Counted, claims_of_quiet quiet] at counted
    refine counted.mono fun r ⟨i, pending⟩ => ?_
    rw [todo_of_quiet quiet] at pending
    cases pending
  · exact Bool.eq_false_iff.mpr fun muted => gone alive (parting.silenced l muted)
  · apply Option.eq_none_iff_forall_ne_some.mpr
    intro l found
    have live : l ∈ s.space.live := HandleTable.mem_entries_of_get? found
    exact gone (names h l found).1 (parting.stopped stopping l live)

section

variable {op : Operation} {ns : Namespace}

/-- With no other in progress, an operation that is a run of stages can be carried out to its end. -/
theorem Sound.exists_carries (sound : s.Sound) (quiet : s.quiet = true)
    (runs : Namespace.Runs (Task.start s.space op).2 (Task.start s.space op).1.todo ns) :
    ∃ t, s.Carries op t := by
  obtain ⟨moves, mine, ends⟩ :=
    (sound.at_start quiet op).ends (sound.step (.start s op)) runs
  exact ⟨_, ends, moves, mine, rfl⟩

/-- However it is carried out, it comes to what the run comes to. -/
theorem Carries.space_of_runs (carries : s.Carries op t) (sound : s.Sound) (quiet : s.quiet = true)
    (runs : Namespace.Runs (Task.start s.space op).2 (Task.start s.space op).1.todo ns) :
    t.space = ns := by
  have start := sound.at_start quiet op
  rw [← start.todo, ← start.space] at runs
  obtain ⟨ended, moves, mine, rfl⟩ := carries
  have rest := (sound.step (.start s op)).runs_follow runs mine
  rw [todo_of_quiet ended] at rest
  exact rest.eq_of_done.symm

/-- However it is carried out, it is answered with what the run of its stages comes to. -/
theorem Carries.outcome_of_comesTo (carries : s.Carries op t) (sound : s.Sound) {o : Outcome}
    (comes : Namespace.ComesTo o (Task.start s.space op).2 (Task.start s.space op).1.todo
      (Task.start s.space op).1.outcome) : (t.task s.tasks.size).outcome = some o := by
  obtain ⟨ended, moves, mine, rfl⟩ := carries
  have along := (sound.step (.start s op)).follow_along (i := s.tasks.size)
    (R := Namespace.ComesTo o) (fun ns stage rest answer q comes held => ?_)
    (by rw [task_start]; exact comes) mine
  · rw [todo_of_quiet ended] at along
    generalize (System.task _ _).outcome = answer at along ⊢
    cases along
    rfl
  · cases comes with
    | next r bound later =>
      have same : stage.carryOut ns r = stage.carryOut ns q :=
        Stage.carryOut_congr fun l side what => (bound l side what).symm.trans (held l side what)
      exact same ▸ later

/-- Whatever holds at every stage of an operation holds all along while it is carried out alone. -/
theorem Amid.holds {Q : Namespace → Prop} {u : System} (amid : s.Amid op u) (sound : s.Sound)
    (quiet : s.quiet = true)
    (all : Namespace.Throughout Q (Task.start s.space op).2 (Task.start s.space op).1.todo) :
    Q u.space := by
  have start := sound.at_start quiet op
  rw [← start.todo, ← start.space] at all
  obtain ⟨moves, mine, rfl⟩ := amid
  exact (sound.step (.start s op)).throughout_follow all mine

end

/-- With no other in progress, an operation can be carried out to its end. -/
theorem exists_carries {config : Config} (reachable : Reachable config s) (quiet : s.quiet = true)
    {op : Operation} (ordinary : op.Ordinary) : ∃ t, s.Carries op t :=
  reachable.sound.exists_carries quiet ((reachable.calm quiet).runs_perform ordinary)

/-- However it is carried out, it comes to what it is as a whole. -/
theorem Carries.space {config : Config} {op : Operation} (carries : s.Carries op t)
    (reachable : Reachable config s) (quiet : s.quiet = true) (ordinary : op.Ordinary) :
    t.space = (s.space.perform op).2 :=
  carries.space_of_runs reachable.sound quiet ((reachable.calm quiet).runs_perform ordinary)

end System
end LockManager
