import LockManager.Proofs.Resending

set_option autoImplicit false

/-!
Shutting down. From its beginning nobody is told anything more and no request is let in; at its end no
lock is left, and so neither a resource nor anything that is remembered of a request. It can come to its
end whatever is still on its way to the owners, since a worker that goes on only drops messages.
-/

namespace LockManager

theorem Index.entries_eq_nil {α β : Type} [DecidableEq α] {m : Index α β}
    (none : ∀ k, m.get? k = none) : m.entries = [] := by
  obtain ⟨entries⟩ := m
  cases entries with
  | nil => rfl
  | cons e entries =>
    have found := none e.1
    simp [Index.get?] at found

/-- The operation is asked for by an owner on its own behalf, and needs a namespace that is running. -/
def Operation.NeedsRunning : Operation → Prop
  | .enqueue _ | .create _ | .convert _ _ | .glimpse _ _ => True
  | _ => False

namespace Namespace

variable {ns : Namespace} {l : LockId}

/-- There is no live lock, nobody is in any queue, no resource is in the index, and nothing is remembered
of any request. -/
structure Emptied (ns : Namespace) : Prop where
  live : ns.live = []
  gone : ∀ l, ¬ns.Alive l
  entries : ∀ r, (ns.resource r).queues.entries = []
  index : ns.index.entries = []
  replays : ns.replays.entries = []

/-- With no lock left nothing refers to anything. -/
theorem Calm.emptied (calm : ns.Calm) (room : ns.Room) (faithful : ns.Faithful)
    (stopping : ns.stopping = true) : ns.Emptied := by
  have unnamed := calm.ended stopping
  have gone (l : LockId) : ¬ns.Alive l := by
    rintro ⟨known, stays⟩
    have named := ((calm.sound.handles room).2 _ l).mpr ⟨known, rfl, stays⟩
    rw [unnamed] at named
    cases named
  refine ⟨?_, gone, fun r => ?_, Index.entries_eq_nil fun k => ?_,
    Index.entries_eq_nil fun ⟨owner, seq⟩ => ?_⟩
  · refine List.eq_nil_iff_forall_not_mem.mpr fun l live => ?_
    exact gone l ((calm.sound.mem_live_iff room).mp live)
  · refine List.eq_nil_iff_forall_not_mem.mpr fun e inside => ?_
    exact gone e.claim.id (calm.sound.alive_of_mem inside).1
  · refine Option.eq_none_iff_forall_ne_some.mpr fun r there => ?_
    have nobody : ns.binders r = ∅ := by
      refine Finset.eq_empty_of_forall_notMem fun l binds => ?_
      exact gone l (mem_binders.mp binds).1
    refine calm.counted.unused k r there ?_
    rw [calm.counted.count, nobody, Finset.card_empty]
    rfl
  · refine Option.eq_none_iff_forall_ne_some.mpr fun h found => ?_
    obtain ⟨l, named, -⟩ := faithful owner seq h found
    rw [unnamed] at named
    cases named

/-! ### Refusals -/

/-- Whatever it asks for, a request is refused. -/
theorem refused_of_stopping (stopping : ns.stopping = true) {op : Operation}
    (needs : op.NeedsRunning) :
    ns.perform op = (.error (.shuttingDown ns.config.name), ns) ∧
      Task.start ns op = (.answered (.error (.shuttingDown ns.config.name)), ns) := by
  have refused : ns.ensureRunning = .error (.shuttingDown ns.config.name) := if_pos stopping
  have unregistered (req : LockRequest) :
      ns.register req = .error (.shuttingDown ns.config.name) := by
    unfold register
    rw [refused]
    rfl
  cases op with
  | enqueue req =>
    unfold perform Task.start enqueue
    simp only [unregistered]
    exact ⟨rfl, trivial⟩
  | create req =>
    unfold perform Task.start createLock
    simp only [unregistered]
    exact ⟨rfl, rfl⟩
  | convert h mode =>
    unfold perform Task.start convert
    simp only [refused]
    exact ⟨rfl, trivial⟩
  | glimpse k requester =>
    unfold perform Task.start glimpse
    simp only [refused]
    exact ⟨rfl, trivial⟩
  | _ => exact needs.elim

theorem shutdown_of_stopping (stopping : ns.stopping = true) :
    ns.perform .shutdown = (.ok .stopped, ns) ∧
      Task.start ns .shutdown = (.answered (.ok .stopped), ns) := by
  unfold perform Task.start shutdown
  simp only [stopping, if_true, and_self]

/-! ### Silence -/

theorem Sound.muted_of_gone (sound : ns.Sound) (known : l < ns.locks.size) (gone : ¬ns.Alive l) :
    (ns.lock l).Muted :=
  .inr (sound.leaving_of_gone known gone)

/-- A worker that goes on with a muted lock is done with it. -/
theorem outstanding_drain (ns : Namespace) (muted : (ns.lock l).Muted) :
    (ns.drain l).dispatcher.outstanding = ns.dispatcher.outstanding - 1 := by
  rcases ns.drain_cases l with ⟨n, rest, -, heard, -⟩ | ⟨-, after⟩
  · exact absurd muted heard
  · rw [after]
    rfl

end Namespace

namespace System

variable {config : Config} {s t u : System} {i : TaskId}

/-- A shutdown has begun: no more locks come, and nobody is told anything. -/
structure Stopped (s : System) : Prop where
  stopping : s.space.stopping = true
  muted : ∀ l, l < s.space.locks.size → (s.space.lock l).Muted
  room : s.space.Room

namespace Stopped

/-- No lock is made any more. -/
theorem still (stopped : Stopped s) (sound : s.Sound) (step : Step s t) :
    t.space.stopping = s.space.stopping ∧ t.space.locks.size = s.space.locks.size := by
  have stays (running : s.space.stopping = false) : False := by
    rw [stopped.stopping] at running
    cases running
  rcases sound.abides step with ⟨silences, size, -⟩ | ⟨op, shuts, -⟩
  · exact ⟨silences.stopping, size.resolve_right stays⟩
  · exact (stays shuts.running).elim

theorem step (stopped : Stopped s) (sound : s.Sound) (step : Step s t) : Stopped t := by
  obtain ⟨stopping, size⟩ := stopped.still sound step
  refine ⟨stopping.trans stopped.stopping, fun l known => ?_,
    sound.room_of_size step size stopped.room⟩
  exact (sound.ignores step l (stopped.muted l (size ▸ known))).1

theorem reaches (stopped : Stopped s) (sound : s.Sound) (run : Reaches s t) : Stopped t := by
  induction run with
  | refl => exact stopped
  | step before last ih => exact ih.step (sound.reaches before) last

end Stopped

/-- The locks there are have been silenced, and those that are gone hear nothing any more. -/
theorem Stopped.shut (sound : s.Sound) (room : s.space.Room) {op : Operation} (shuts : Shuts s op) :
    Stopped (s.start op) := by
  have space := shuts.space
  have same := s.space.alike_beginShutdown
  rw [← space] at same
  refine ⟨congrArg Namespace.stopping space, fun l known => ?_,
    (congrArg (·.slots.size) same.handles).trans_le room⟩
  have known : l < s.space.locks.size := known.trans_eq same.size
  rw [space]
  by_cases alive : s.space.Alive l
  · exact Namespace.muted_silence ((sound.space.mem_live_iff room).mpr alive) known
  · exact (s.space.ignores_silence s.space.live l (sound.space.muted_of_gone known alive)).1

/-- Once a shutdown has begun nobody is told anything, whatever is still in progress. -/
theorem Reachable.stopped_of_stopping (reachable : Reachable config s) (room : s.space.Room)
    (stopping : s.space.stopping = true) : Stopped s := by
  induction reachable using Reachable.induction with
  | create created =>
    obtain ⟨-, rfl⟩ := Namespace.create_eq_ok.mp created
    cases stopping
  | step before last ih =>
    have room' := (before.sound.turn last).room room
    rcases before.sound.abides last with abides | ⟨op, shuts, rfl⟩
    · exact (ih room' (abides.silences.stopping.symm.trans stopping)).step before.sound last
    · exact .shut before.sound room' shuts

theorem Reachable.stopped (reachable : Reachable config s) (quiet : s.quiet = true)
    (room : s.space.Room) : Stopped (s.start .shutdown) := by
  have calm := reachable.calm quiet
  cases stopping : s.space.stopping with
  | true =>
    have space : (s.start .shutdown).space = s.space :=
      congrArg Prod.snd (Namespace.shutdown_of_stopping stopping).2
    have emptied := calm.emptied room (reachable.faithful room) stopping
    rw [← space] at stopping room
    refine ⟨stopping, fun l known => ?_, room⟩
    rw [space] at known ⊢
    exact calm.sound.muted_of_gone known (emptied.gone l)
  | false =>
    have start : Task.start s.space .shutdown =
        ({ todo := s.space.live.map (.mark · true) ++ [.close], outcome := some (.ok .stopped) },
          s.space.beginShutdown) := by
      unfold Task.start
      simp only [stopping, Bool.false_eq_true, if_false]
    have mine : ((s.start .shutdown).task s.tasks.size).todo = (Task.start s.space .shutdown).1.todo :=
      congrArg Task.todo (s.task_start .shutdown)
    exact .shut reachable.sound room ⟨stopping, congrArg Prod.snd start, mine.trans (by rw [start])⟩

/-! ### Deliveries -/

theorem Reachable.known_of_busy (reachable : Reachable config s) {d : Delivery}
    (busy : d ∈ s.space.dispatcher.deliveries) : d.lock < s.space.locks.size := by
  refine Namespace.known_of_scheduled ((reachable.delivering.scheduled d.lock).mpr ?_)
  exact List.mem_append_left _ (List.mem_append_right _ (List.mem_map_of_mem busy))

theorem Hands.deliveries {new : List Delivery} (hands : Hands s new t) :
    ∃ kept, kept.Sublist s.space.dispatcher.deliveries ∧
      t.space.dispatcher.deliveries = kept ++ new := by
  cases hands with
  | takeUp taken handed => exact ⟨_, .refl _, handed⟩
  | finish busy handed => exact ⟨_, List.erase_sublist, handed⟩

/-- What is on its way may arrive, but nothing more is handed over. -/
theorem Stopped.deliveries (stopped : Stopped s) (reachable : Reachable config s)
    (step : Step s t) :
    t.space.dispatcher.deliveries.Sublist s.space.dispatcher.deliveries := by
  rcases reachable.begins step with same | ⟨new, hands, heard⟩
  · rw [same]
  · obtain ⟨kept, fewer, after⟩ := hands.deliveries
    have none : new = [] := by
      refine List.eq_nil_iff_forall_not_mem.mpr fun d begun => heard d begun (stopped.muted _ ?_)
      have known := (reachable.reaches (.single step)).known_of_busy
        (after ▸ List.mem_append_right kept begun)
      exact known.trans_eq (stopped.still reachable.sound step).2
    rw [after, none, List.append_nil]
    exact fewer

theorem Reachable.workers_pos (reachable : Reachable config s) : 0 < s.space.config.workers := by
  rw [reachable.config_eq]
  obtain ⟨ns, created, -⟩ := reachable
  refine Nat.pos_of_ne_zero fun nobody => ?_
  have faulty : config.fault? ≠ none := by
    unfold Config.fault?
    rw [if_pos nobody]
    split <;> exact Option.some_ne_none _
  exact faulty (Namespace.create_eq_ok.mp created).1

/-- As long as something is outstanding, a worker can go on so that there is less. -/
theorem Stopped.less (stopped : Stopped s) (reachable : Reachable config s)
    (busy : s.space.dispatcher.outstanding ≠ 0) : ∃ ns, Step s { s with space := ns } ∧
      ns.dispatcher.outstanding < s.space.dispatcher.outstanding := by
  have d := reachable.delivering
  have muted (l : LockId) (engaged : l ∈ s.space.dispatcher.engaged) : (s.space.lock l).Muted := by
    refine stopped.muted l (Namespace.known_of_scheduled ((d.scheduled l).mpr ?_))
    exact List.mem_append_left _ engaged
  have less : s.space.dispatcher.outstanding - 1 < s.space.dispatcher.outstanding :=
    Nat.sub_lt (Nat.pos_of_ne_zero busy) Nat.one_pos
  cases deliveries : s.space.dispatcher.deliveries with
  | cons delivery rest =>
    have underway : delivery ∈ s.space.dispatcher.deliveries := deliveries ▸ List.mem_cons_self
    have ready : (s.space.lock delivery.lock).Muted :=
      muted _ (List.mem_append_right _ (List.mem_map_of_mem underway))
    refine ⟨s.space.finish delivery, .finish underway, ?_⟩
    have after := (s.space.modifyDispatcher fun x =>
      { x with deliveries := x.deliveries.erase delivery }).outstanding_drain ready
    exact after.trans_lt less
  | nil =>
    cases queue : s.space.dispatcher.queue with
    | nil =>
      have none : s.space.dispatcher.outstanding = 0 := by
        refine d.outstanding.trans ?_
        simp only [Namespace.mail, Dispatcher.engaged, Dispatcher.busy, queue, deliveries]
        rfl
      exact absurd none busy
    | cons l rest =>
      have ready : (s.space.lock l).Muted :=
        muted l (List.mem_append_left _ (queue ▸ List.mem_cons_self))
      have taken : s.space.takeUp? =
          some ((s.space.modifyDispatcher ({ · with queue := rest })).drain l) := by
        unfold Namespace.takeUp?
        rw [deliveries, queue]
        exact if_pos reachable.workers_pos
      refine ⟨_, .takeUp taken, ?_⟩
      have after := (s.space.modifyDispatcher ({ · with queue := rest })).outstanding_drain ready
      exact after.trans_lt less

/-- What is outstanding can be got rid of while all operations stay where they are. -/
theorem Stopped.drains (stopped : Stopped s) (reachable : Reachable config s) :
    ∃ t, Reaches s t ∧ t.tasks = s.tasks ∧ t.space.idle = true := by
  induction outstanding : s.space.dispatcher.outstanding using Nat.strong_induction_on
    generalizing s with
  | h n ih =>
    by_cases busy : s.space.dispatcher.outstanding = 0
    · exact ⟨s, .refl, rfl, decide_eq_true busy⟩
    · obtain ⟨ns, step, less⟩ := stopped.less reachable busy
      obtain ⟨t, run, tasks, idle⟩ := ih _ (outstanding ▸ less) (stopped.step reachable.sound step)
        (reachable.reaches (.single step)) rfl
      exact ⟨t, (Reaches.single step).trans run, tasks, idle⟩

/-! ### The end -/

/-- A shutdown can come to its end. -/
theorem Reachable.shuts_down (reachable : Reachable config s) (quiet : s.quiet = true)
    (room : s.space.Room) : ∃ t, s.Completes .shutdown t := by
  have sound := reachable.sound
  have calm := reachable.calm quiet
  have begun := sound.at_start quiet .shutdown
  cases stopping : s.space.stopping with
  | true =>
    rw [(Namespace.shutdown_of_stopping stopping).2] at begun
    exact ⟨_, begun.quiet, .refl, s.size_start _⟩
  | false =>
    have start : Task.start s.space .shutdown =
        ({ todo := s.space.live.map (.mark · true) ++ [.close], outcome := some (.ok .stopped) },
          s.space.beginShutdown) := by
      unfold Task.start
      simp only [stopping, Bool.false_eq_true, if_false]
    rw [start] at begun
    have ready := calm.ready room s.space.alike_beginShutdown (.refl _)
    have started := reachable.reaches (.single (.start s .shutdown))
    obtain ⟨moves, mine, canceled⟩ := begun.onto started.sound (Namespace.runs_marks ready)
    have run : Reaches (s.start .shutdown) ((s.start .shutdown).follow moves) := reaches_follow _ _
    have size := size_follow (s := s.start .shutdown) mine
    generalize (s.start .shutdown).follow moves = u at canceled run size
    obtain ⟨v, drained, tasks, idle⟩ :=
      ((reachable.stopped quiet room).reaches started.sound run).drains (started.reaches run)
    -- all that is left is to close the dispatcher
    have task (j : TaskId) : v.task j = u.task j := congrArg (Arena.get · j) tasks
    have last : At v s.tasks.size v.space [.close] .outside := by
      refine ⟨fun j other => ?_, rfl, ?_, ?_⟩
      · rw [task]
        exact canceled.lone j other
      · rw [task]
        exact canceled.todo
      · rw [task]
        exact canceled.place
    have prepared : v.prepared? s.tasks.size = some 0 := by
      simp only [prepared?, last.need, Stage.need, idle, if_true]
    obtain ⟨t, done, ended⟩ := last.carryOut prepared
    refine ⟨t, ended.quiet, (run.trans drained).trans (done ▸ v.reaches_move _), ?_⟩
    rw [← done, size_move (.inr rfl), tasks, size, s.size_start]

/-- With no operation in progress, a shutdown can be carried through. Once it has begun no delivery
begins, and whoever makes a lock, converts one or asks about a cache is refused whatever it asks for; a
second shutdown has no effect. Whenever no operation is in progress after that, no live lock is left, no
resource is in the index, and nothing is remembered of any request (as long as slot numbers fit a handle,
so that the live locks are those in the table of handles). -/
theorem shutdown_empties (reachable : Reachable config s) (quiet : s.quiet = true)
    (room : s.space.Room) :
    (∃ t, s.Completes .shutdown t) ∧
    ∀ t, Reaches (s.start .shutdown) t →
      (t.quiet = true → t.space.Emptied) ∧
      (∀ u, Step t u →
        u.space.dispatcher.deliveries.Sublist t.space.dispatcher.deliveries) ∧
      (∀ op : Operation, op.NeedsRunning →
        t.space.perform op = (.error (.shuttingDown config.name), t.space) ∧
          Task.start t.space op = (.answered (.error (.shuttingDown config.name)), t.space)) ∧
      t.space.perform .shutdown = (.ok .stopped, t.space) ∧
        Task.start t.space .shutdown = (.answered (.ok .stopped), t.space) := by
  refine ⟨reachable.shuts_down quiet room, fun t run => ?_⟩
  have started := reachable.reaches (.single (.start s .shutdown))
  have reached := started.reaches run
  have stopped := (reachable.stopped quiet room).reaches started.sound run
  refine ⟨fun ended => ?_, fun u step => stopped.deliveries reached step, fun op needs => ?_,
    Namespace.shutdown_of_stopping stopped.stopping⟩
  · exact (reached.calm ended).emptied stopped.room (reached.faithful stopped.room) stopped.stopping
  · rw [← reached.config_eq]
    exact Namespace.refused_of_stopping stopped.stopping needs

/-- A writes, B waits to read, and C has a lock that it has not brought to its resource. -/
def readerBehindWriter : System :=
  (fresh {}).follow
    (Move.through (.enqueue ⟨⟨1, 0⟩, .exclusive, .plain, ⟨"a"⟩, some 7⟩) 0 ++
      Move.through (.enqueue ⟨⟨1, 0⟩, .protectedRead, .plain, ⟨"b"⟩, none⟩) 1 ++
      Move.through (.create ⟨⟨2, 0⟩, .protectedRead, .plain, ⟨"c"⟩, some 9⟩) 2)

/-- A is being asked to give way. -/
def writerAsked : System :=
  { readerBehindWriter with
    space := readerBehindWriter.space.takeUp?.getD readerBehindWriter.space }

/-- Nothing is left of the three locks, and nobody else is let in. -/
theorem shutdown_empties_asked :
    writerAsked.space.live.length = 3 ∧ writerAsked.space.dispatcher.deliveries.length = 1 ∧
      ∃ t, writerAsked.Completes .shutdown t ∧ t.space.Emptied ∧
        ∀ req, t.space.perform (.enqueue req) = (.error (.shuttingDown "default"), t.space) := by
  have taken : readerBehindWriter.space.takeUp? = some writerAsked.space := by
    unfold writerAsked
    cases step : readerBehindWriter.space.takeUp? with
    | none =>
      have busy : readerBehindWriter.space.takeUp?.isSome = true := by decide +kernel
      rw [step] at busy
      cases busy
    | some ns => rfl
  have reachable : Reachable {} readerBehindWriter := reachable_follow rfl _
  have asked : Reachable {} writerAsked := reachable.reaches (.single (.takeUp taken))
  obtain ⟨⟨t, completes⟩, after⟩ :=
    shutdown_empties asked (by decide +kernel) (by decide +kernel)
  obtain ⟨empty, -, refused, -⟩ := after t completes.2.1
  exact ⟨by decide +kernel, by decide +kernel, t, completes, empty completes.1,
    fun req => (refused (.enqueue req) trivial).1⟩

end System
end LockManager
