import LockManager.Proofs.Namespace.Refusals
import LockManager.Proofs.SilentEviction
import LockManager.Proofs.StaleHandles

set_option autoImplicit false

/-!
Sending a request again. When operations are run one after another, the numbers that are remembered are
just those of the live locks, and a request that bears one of them is answered with the lock it bears
the number of, however that stands by now. Nothing else comes of it.
-/

namespace LockManager
namespace Namespace

variable {ns ns' : Namespace} {h : Handle} {l : LockId} {owner : Owner} {seq : UInt64}

/-- The handle names a live lock that was made for the owner's request of that number. -/
def MadeFor (ns : Namespace) (h : Handle) (owner : Owner) (seq : UInt64) : Prop :=
  ∃ l, ns.handles.get? h = some l ∧ (ns.lock l).claim.owner = owner ∧
    (ns.lock l).claim.clientSeq = some seq

/-- Whatever is remembered of a number is a handle made for it. -/
def Faithful (ns : Namespace) : Prop :=
  ∀ owner seq h, ns.replays.get? (owner, seq) = some h → ns.MadeFor h owner seq

theorem get?_dropReplay_ne {claim : Claim} (asked : claim.clientSeq = some seq) :
    (ns.dropReplay claim).replays.get? (claim.owner, seq) ≠ some claim.handle := by
  intro found
  unfold dropReplay at found
  simp only [asked] at found
  split at found
  · have erased := (Index.get?_erase ..).symm.trans found
    rw [if_pos rfl] at erased
    cases erased
  · next other => exact other found

/-- Whoever leaves takes along what is remembered of its number. -/
theorem Faithful.leave (faithful : ns.Faithful) (sound : ns.Sound) (names : ns.Names)
    (room : ns.Room) (alive : ns.Alive l)
    (claim : ∀ k, k < ns.locks.size → (ns'.lock k).claim = (ns.lock k).claim)
    (handles : ns'.handles = ns.handles.remove (ns.lock l).handle)
    (replays : ns'.replays = (ns.dropReplay (ns.lock l).claim).replays) : ns'.Faithful := by
  intro owner seq h found
  rw [replays] at found
  obtain ⟨k, named, mine, asked⟩ := faithful owner seq h (get?_of_dropReplay found)
  obtain ⟨stays, bears⟩ := names h k named
  have other : h ≠ (ns.lock l).handle := by
    rintro same
    obtain rfl := sound.eq_of_handle room stays alive (bears.trans same)
    rw [← mine, ← bears] at found
    exact get?_dropReplay_ne asked found
  refine ⟨k, ?_, ?_, ?_⟩
  · rw [handles, HandleTable.get?_remove, if_neg other]
    exact named
  · rw [claim k stays.1]
    exact mine
  · rw [claim k stays.1]
    exact asked

/-- A new lock is remembered by the number it was asked for under. -/
theorem Faithful.addLock (faithful : ns.Faithful) (sound : ns.Sound) {req : LockRequest}
    (room : (ns.addLock req).2.Room)
    (claim : ∀ k, k < ns.locks.size → ((ns.addLock req).2.lock k).claim = (ns.lock k).claim) :
    (ns.addLock req).2.Faithful := by
  have handles := ns.handles_addLock req
  unfold Room at room
  rw [handles] at room
  obtain ⟨proper, -⟩ := sound.handles ((HandleTable.size_le_insertWith _).trans room)
  intro owner seq h found
  rw [replays_addLock] at found
  unfold MadeFor
  rw [handles]
  have before (found : ns.replays.get? (owner, seq) = some h) : ∃ l,
      (ns.handles.insertWith fun _ => ns.locks.size).get? h = some l ∧
        ((ns.addLock req).2.lock l).claim.owner = owner ∧
        ((ns.addLock req).2.lock l).claim.clientSeq = some seq := by
    obtain ⟨k, named, mine, asked⟩ := faithful owner seq h found
    have known : k < ns.locks.size := sound.listed k (HandleTable.mem_entries_of_get? named)
    refine ⟨k, ?_, ?_, ?_⟩
    · rw [HandleTable.get?_insertWith proper room, if_neg]
      · exact named
      · rintro rfl
        rw [HandleTable.get?_upcoming proper room] at named
        cases named
    · rw [claim k known]
      exact mine
    · rw [claim k known]
      exact asked
  cases numbered : req.clientSeq with
  | none =>
    rw [numbered] at found
    exact before found
  | some number =>
    rw [numbered] at found
    have entry := (Index.get?_insert ..).symm.trans found
    split at entry
    · next same =>
      obtain ⟨rfl, rfl⟩ := Prod.mk.inj same
      obtain rfl := Option.some.inj entry
      refine ⟨ns.locks.size, ?_, ?_, ?_⟩
      · rw [HandleTable.get?_insertWith proper room, if_pos rfl]
      · rw [claim_addLock]
      · rw [claim_addLock]
        exact numbered
    · exact before entry

theorem Faithful.forget (faithful : ns.Faithful) (owner : Owner) : (ns.forget owner).Faithful := by
  intro other seq h found
  have kept := (Index.get?_restrict ..).symm.trans found
  split at kept
  · exact faithful other seq h kept
  · cases kept

end Namespace

namespace System

variable {config : Config} {s t : System} {i : TaskId} {owner : Owner} {l : LockId}

theorem Reachable.faithful_step (reachable : Reachable config s) (room : t.space.Room)
    (step : Step s t) (faithful : s.space.Faithful) : t.space.Faithful := by
  have sound := reachable.sound
  have claim : ∀ k, k < s.space.locks.size → (t.space.lock k).claim = (s.space.lock k).claim :=
    fun k known => (sound.lasts step known).claim
  have before := (sound.turn step).room room
  cases sound.turn step with
  | same size handles replays =>
    intro owner seq h found
    obtain ⟨k, named, mine⟩ := faithful owner seq h (replays ▸ found)
    have known : k < s.space.locks.size :=
      sound.space.listed k (HandleTable.mem_entries_of_get? named)
    refine ⟨k, handles ▸ named, ?_⟩
    rw [claim k known]
    exact mine
  | @made req valid new space =>
    rw [space] at room claim ⊢
    exact faithful.addLock sound.space room claim
  | left alive gone size handles replays =>
    exact faithful.leave sound.space reachable.names before alive claim handles replays
  | forgot todo done space =>
    rw [space]
    exact faithful.forget _

/-- At no point is anything remembered of a number but the handle of a live lock made for it. -/
theorem Reachable.faithful (reachable : Reachable config s) (room : s.space.Room) :
    s.space.Faithful := by
  induction reachable using Reachable.induction with
  | create created =>
    obtain ⟨-, rfl⟩ := Namespace.create_eq_ok.mp created
    intro owner seq h found
    cases found
  | step before last ih =>
    have earlier := (before.sound.turn last).room room
    exact before.faithful_step room last (ih earlier)

/-! ### One operation after another -/

/-- Operations have been run one after another: none has begun while another was in progress. Messages
are handed over and time passes at any point. -/
inductive Sequential (config : Config) : System → Prop where
  | create {ns : Namespace} (created : Namespace.create config = .ok ns) :
      Sequential config { space := ns }
  | step {s t : System} (before : Sequential config s) (step : Step s t)
      (turn : s.tasks.size < t.tasks.size → s.quiet = true) : Sequential config t

theorem Sound.size_of_goes_on (sound : s.Sound) (step : Step s t)
    (same : t.tasks.size = s.tasks.size) : t.space.locks.size = s.space.locks.size := by
  rcases step.goes_on same with ⟨j, done⟩ | ⟨alike, -⟩
  · obtain ⟨stage, rest, q, todo, prepared, space, -⟩ := Sound.carryOut_cases done
    rw [space]
    exact (sound.records todo prepared).size
  · exact alike.size

/-- What is known of numbered requests while operations are run one after another. -/
structure Remembering (s : System) : Prop where
  /-- No lock has been made since an eviction in progress began. -/
  evictions : ∀ i owner, .forget owner ∈ (s.task i).todo →
    ∃ a, Evicting a s i owner ∧ s.space.locks.size = a.space.locks.size
  answers : ∀ l, s.space.Alive l → s.space.Answers l

namespace Remembering

theorem evictions_step (remembering : Remembering s) (sound : s.Sound) (room : s.space.Room)
    (step : Step s t) (turn : s.tasks.size < t.tasks.size → s.quiet = true)
    (inside : .forget owner ∈ (t.task i).todo) :
    ∃ a, Evicting a t i owner ∧ t.space.locks.size = a.space.locks.size := by
  by_cases old : i < s.tasks.size
  · have there : .forget owner ∈ (s.task i).todo := by
      rcases todo_step step old with same | done
      · exact same ▸ inside
      · exact mem_todo_of_carryOut done id inside
    have same : t.tasks.size = s.tasks.size := by
      refine Nat.le_antisymm (Nat.le_of_not_lt fun more => ?_) (size_le_of_step step)
      rw [todo_of_quiet (turn more)] at there
      cases there
    obtain ⟨a, evicting, size⟩ := remembering.evictions i owner there
    refine ⟨a, ?_, (sound.size_of_goes_on step same).trans size⟩
    rcases todo_step step old with still | done
    · exact evicting.wait sound step still
    · exact evicting.advance sound done inside
  · obtain ⟨rfl, rfl⟩ := start_of_forget step old inside
    exact ⟨s, .start sound room owner, (s.space.alike_silence _).size⟩

/-- An eviction that is about to forget has seen the end of all the owner's locks. -/
theorem gone_of_forget (remembering : Remembering s) {rest : List Stage}
    (todo : (s.task i).todo = .forget owner :: rest) (alive : s.space.Alive l) :
    (s.space.lock l).claim.owner ≠ owner := by
  intro owned
  obtain ⟨a, evicting, size⟩ := remembering.evictions i owner (todo ▸ List.mem_cons_self)
  obtain ⟨before, shape, others, ends⟩ := evicting.ends
  obtain ⟨stage, member, -⟩ := ends l (alive.1.trans_eq size) alive owned
  cases before with
  | nil => cases member
  | cons x before =>
    rw [todo] at shape
    obtain ⟨rfl, -⟩ := List.cons.inj shape
    exact others owner List.mem_cons_self

theorem step (remembering : Remembering s) (sound : s.Sound) (room : s.space.Room)
    (step : Step s t) (turn : s.tasks.size < t.tasks.size → s.quiet = true) : Remembering t := by
  refine ⟨fun i owner => remembering.evictions_step sound room step turn, fun l alive => ?_⟩
  rcases sound.answers_step room step alive fun known =>
      remembering.answers l ((sound.lasts step known).alive alive) with
    answers | ⟨i, rest, todo, -, known⟩
  · exact answers
  · have before := (sound.lasts step known).alive alive
    exact absurd rfl (remembering.gone_of_forget todo before)

end Remembering

namespace Sequential

theorem reachable (run : Sequential config s) : Reachable config s := by
  induction run with
  | @create ns created => exact ⟨ns, created, .refl⟩
  | step before step turn ih => exact ih.reaches (.single step)

theorem remembering (run : Sequential config s) (room : s.space.Room) : Remembering s := by
  induction run with
  | create created =>
    refine ⟨fun i owner inside => ?_, fun l alive => ?_⟩
    · exact absurd (lt_size_of_todo inside) (Nat.not_lt_zero i)
    · obtain ⟨-, rfl⟩ := Namespace.create_eq_ok.mp created
      exact absurd alive.1 (Nat.not_lt_zero l)
  | step before step turn ih =>
    have sound := before.reachable.sound
    have earlier := (sound.turn step).room room
    exact (ih earlier).step sound earlier step turn

theorem move (run : Sequential config s) {m : Move} (mine : m.By i) :
    Sequential config (s.move m) := by
  have size := s.size_move mine
  rcases mine with rfl | rfl
  · simp only [System.move] at size ⊢
    cases taken : s.take? i with
    | none => exact run
    | some t =>
      rw [taken] at size
      exact .step run (.take i taken) fun more => absurd more (Nat.not_lt_of_le size.le)
  · simp only [System.move] at size ⊢
    cases done : s.carryOut? i with
    | none => exact run
    | some t =>
      rw [done] at size
      exact .step run (.carryOut i done) fun more => absurd more (Nat.not_lt_of_le size.le)

theorem follow (run : Sequential config s) {moves : List Move} (mine : ∀ m ∈ moves, m.By i) :
    Sequential config (s.follow moves) := by
  unfold System.follow
  induction moves generalizing s with
  | nil => exact run
  | cons m moves ih =>
    exact ih (run.move (mine m List.mem_cons_self)) fun m later =>
      mine m (List.mem_cons_of_mem _ later)

/-- One more operation is run. -/
theorem through (run : Sequential config s) (quiet : s.quiet = true) (op : Operation) (i : TaskId) :
    Sequential config (s.follow (Move.through op i)) := by
  have begun : Sequential config (s.start op) := .step run (.start s op) fun _ => quiet
  refine begun.follow (i := i) fun m member => ?_
  simp only [List.mem_cons, List.not_mem_nil, or_false] at member
  rcases member with rfl | rfl | rfl
  · exact .inl rfl
  · exact .inl rfl
  · exact .inr rfl

/-- What is remembered of a number is the handle of the live lock made for it, if there is one. -/
theorem remembered_iff (run : Sequential config s) (room : s.space.Room) (owner : Owner)
    (seq : UInt64) (h : Handle) :
    s.space.replays.get? (owner, seq) = some h ↔ s.space.MadeFor h owner seq := by
  refine ⟨run.reachable.faithful room owner seq h, ?_⟩
  rintro ⟨l, named, rfl, asked⟩
  obtain ⟨alive, rfl⟩ := run.reachable.names h l named
  exact (run.remembering room).answers l alive seq asked

end Sequential

end System

/-! ### Sending it again -/

namespace Namespace

variable {ns ns' : Namespace} {h : Handle} {l : LockId} {req : LockRequest}

theorem register_of_copy (running : ns.stopping = false) (valid : req.policy.fault? = none)
    (named : req.owner.name.isEmpty = false) (copy : ns.replayOf? req = some l) :
    ns.register req = .ok (.replay l, ns) := by
  unfold register ensureRunning
  simp only [running, valid, named, copy, Bool.false_eq_true, if_false, bind, Except.bind, pure,
    Except.pure]

theorem ok_of_perform_enqueue {reply : Reply}
    (answered : (ns.perform (.enqueue req)).1 = .ok (.enqueued reply)) :
    (ns.enqueue req).1 = .ok reply := by
  have same : (ns.enqueue req).1.map Answer.enqueued = .ok (.enqueued reply) := answered
  cases first : (ns.enqueue req).1 with
  | error e =>
    rw [first] at same
    cases same
  | ok other =>
    rw [first] at same
    cases same
    rfl

/-- Who is answered has asked for something that can be met. -/
theorem unopposed_of_enqueue {reply : Reply} (answered : (ns.enqueue req).1 = .ok reply) :
    ns.stopping = false ∧ req.policy.fault? = none ∧ req.owner.name.isEmpty = false := by
  refine unopposed_iff.mp (Option.eq_none_iff_forall_ne_some.mpr fun e objection => ?_)
  rw [(ns.upfront_enqueue req).error_iff.mpr objection] at answered
  cases answered

/-- A request that has not been made before makes a lock, and the answer bears its handle. -/
theorem made_by_enqueue {reply : Reply} (sound : ns.Sound) (new : ns.replayOf? req = none)
    (answered : (ns.enqueue req).1 = .ok reply) :
    (Task.start ns (.enqueue req)).2 = (ns.addLock req).2 ∧
      ((ns.addLock req).2.lock ns.locks.size).handle = reply.handle := by
  obtain ⟨running, valid, named⟩ := unopposed_of_enqueue answered
  have entered := Resting.register_fresh running valid named new
  obtain ⟨ns', done⟩ := submit_addLock running req
  rw [enqueue_of_submit entered done] at answered
  obtain rfl := Except.ok.inj answered
  have known : ns.locks.size < (ns.addLock req).2.locks.size :=
    (ns.size_addLock req).symm ▸ Nat.lt_succ_self _
  have onward := (sound.addLock valid).sound.submit known rfl done
  refine ⟨?_, congrArg Claim.handle (onward.keeps.lock _).claim.symm⟩
  simp only [Task.start, entered]

theorem perform_copy (running : ns.stopping = false) (valid : req.policy.fault? = none)
    (named : req.owner.name.isEmpty = false) (copy : ns.replayOf? req = some l) :
    ns.perform (.enqueue req) = (.ok (.enqueued (ns.reply l)), ns) ∧
      Task.start ns (.enqueue req) = (.answered (.ok (.enqueued (ns.reply l))), ns) := by
  have registered := register_of_copy running valid named copy
  refine ⟨?_, ?_⟩
  · unfold perform enqueue
    simp only [registered]
    rfl
  · simp only [Task.start, registered]

end Namespace

namespace System

variable {config : Config} {s t : System} {req : LockRequest} {h : Handle} {l : LockId}

theorem Sequential.replayOf?_eq (run : Sequential config s) (room : s.space.Room)
    (named : s.space.handles.get? h = some l) (owned : (s.space.lock l).claim.owner = req.owner)
    (asked : (s.space.lock l).claim.clientSeq = req.clientSeq) (numbered : req.clientSeq ≠ none) :
    s.space.replayOf? req = some l := by
  obtain ⟨seq, number⟩ := Option.ne_none_iff_exists'.mp numbered
  have found := (run.remembered_iff room req.owner seq h).mpr ⟨l, named, owned, asked.trans number⟩
  unfold Namespace.replayOf?
  rw [number, Option.bind_eq_bind, Option.bind_some, found]
  exact named

/-- A request for which there is a live lock is answered with that lock, and that is all. -/
theorem Sequential.resent (run : Sequential config s) (room : s.space.Room)
    (quiet : s.quiet = true) (valid : req.policy.fault? = none)
    (nonempty : req.owner.name.isEmpty = false) (numbered : req.clientSeq ≠ none)
    (named : s.space.handles.get? h = some l) (owned : (s.space.lock l).claim.owner = req.owner)
    (asked : (s.space.lock l).claim.clientSeq = req.clientSeq) :
    let reply : Reply := ⟨h, (s.space.lock l).state, (s.space.lock l).grantedMode⟩
    s.space.perform (.enqueue req) = (.ok (.enqueued reply), s.space) ∧
      Task.start s.space (.enqueue req) = (.answered (.ok (.enqueued reply)), s.space) := by
  have found : s.space.lookup h = .ok l := by
    unfold Namespace.lookup
    rw [named]
  have running := ((run.reachable.calm quiet).named found).2
  have copy := run.replayOf?_eq room named owned asked numbered
  obtain ⟨-, rfl⟩ := run.reachable.names h l named
  exact Namespace.perform_copy running valid nonempty copy

/-- When operations are run one after another, what is remembered of a number is the handle of the live
lock that was made for it. A request for which there is such a lock is answered at once, with the handle
and with how that lock stands by now, and nothing else comes of it. So if a request has made a lock and
the lock still lives, the request is answered with the handle of the first answer when it is sent again. -/
theorem resending_unnoticed (run : Sequential config s) (room : s.space.Room) :
    (∀ owner seq h, s.space.replays.get? (owner, seq) = some h ↔ s.space.MadeFor h owner seq) ∧
    (s.quiet = true → ∀ req h l, req.policy.fault? = none → req.owner.name.isEmpty = false →
      req.clientSeq ≠ none → s.space.handles.get? h = some l →
      (s.space.lock l).claim.owner = req.owner → (s.space.lock l).claim.clientSeq = req.clientSeq →
        let reply : Reply := ⟨h, (s.space.lock l).state, (s.space.lock l).grantedMode⟩
        s.space.perform (.enqueue req) = (.ok (.enqueued reply), s.space) ∧
          Task.start s.space (.enqueue req) = (.answered (.ok (.enqueued reply)), s.space)) ∧
    (s.quiet = true → ∀ s₀ req first, Reachable config s₀ → req.clientSeq ≠ none →
      s₀.space.replayOf? req = none → (s₀.space.perform (.enqueue req)).1 = .ok (.enqueued first) →
      Reaches (s₀.start (.enqueue req)) s → s₀.space.locks.size ∈ s.space.live →
        let l := s₀.space.locks.size
        let reply : Reply := ⟨first.handle, (s.space.lock l).state, (s.space.lock l).grantedMode⟩
        s.space.perform (.enqueue req) = (.ok (.enqueued reply), s.space)) := by
  refine ⟨run.remembered_iff room,
    fun quiet _ _ _ valid nonempty numbered named owned asked =>
      run.resent room quiet valid nonempty numbered named owned asked, ?_⟩
  intro quiet s₀ req first reachable numbered new answered later live
  have answer := Namespace.ok_of_perform_enqueue answered
  obtain ⟨-, valid, nonempty⟩ := Namespace.unopposed_of_enqueue answer
  obtain ⟨begun, bears⟩ := Namespace.made_by_enqueue reachable.sound.space new answer
  have start := reachable.sound.step (.start s₀ (.enqueue req))
  have size : s₀.space.locks.size < (s₀.start (.enqueue req)).space.locks.size := by
    rw [show (s₀.start (.enqueue req)).space = _ from begun, Namespace.size_addLock]
    exact Nat.lt_succ_self _
  have claim := start.claim_of_reaches later size
  rw [show (s₀.start (.enqueue req)).space = _ from begun] at claim
  have sound := run.reachable.sound.space
  have alive := (sound.mem_live_iff room).mp live
  have named := ((sound.handles room).2 _ _).mpr ⟨alive.1, rfl, alive.2⟩
  rw [Lock.handle, claim, ← Lock.handle, bears] at named
  rw [Namespace.claim_addLock] at claim
  exact (run.resent room quiet valid nonempty numbered named (congrArg Claim.owner claim)
    (congrArg Claim.clientSeq claim)).1

/-- A wants to read, and numbers its request. -/
def numberedReader : LockRequest := ⟨⟨1, 0⟩, .protectedRead, .plain, ⟨"a"⟩, some 7⟩

/-- What A was granted has gone down to the weakest mode since. -/
def readerWeakened : System :=
  ((fresh {}).follow (Move.through (.enqueue numberedReader) 0)).follow
    (Move.through (.convert ⟨0, 1⟩ .null) 1)

theorem sequential_readerWeakened : Sequential {} readerWeakened := by
  have begun : Sequential {} (fresh {}) := .create rfl
  have asked := begun.through (by decide +kernel) (.enqueue numberedReader) 0
  exact asked.through (by decide +kernel) (.convert ⟨0, 1⟩ .null) 1

/-- A's request arrives once more. -/
theorem resending_unnoticed_weakened :
    ((fresh {}).space.perform (.enqueue numberedReader)).1 =
        .ok (.enqueued ⟨⟨0, 1⟩, .granted, some .protectedRead⟩) ∧
      readerWeakened.space.perform (.enqueue numberedReader) =
        (.ok (.enqueued ⟨⟨0, 1⟩, .granted, some .null⟩), readerWeakened.space) ∧
      readerWeakened.space.MadeFor ⟨0, 1⟩ ⟨"a"⟩ 7 := by
  have first : ((fresh {}).space.perform (.enqueue numberedReader)).1 =
      .ok (.enqueued ⟨⟨0, 1⟩, .granted, some .protectedRead⟩) := by decide +kernel
  have run := sequential_readerWeakened
  have quiet : readerWeakened.quiet = true := by decide +kernel
  have reachable : Reachable {} (fresh {}) := reachable_follow rfl []
  have after : Reaches ((fresh {}).start (.enqueue numberedReader)) readerWeakened :=
    (reaches_through (fresh {}) _ 0).trans (reaches_follow _ _)
  have live : (fresh {}).space.locks.size ∈ readerWeakened.space.live := by decide +kernel
  have room : readerWeakened.space.Room := by decide +kernel
  obtain ⟨remembered, -, later⟩ := resending_unnoticed run room
  have again := later quiet (fresh {}) numberedReader _ reachable (by decide) rfl first after live
  have state : (readerWeakened.space.lock 0).state = .granted := by decide +kernel
  have holds : (readerWeakened.space.lock 0).grantedMode = some .null := by decide +kernel
  have entry : readerWeakened.space.replays.get? (⟨"a"⟩, 7) = some ⟨0, 1⟩ := by decide +kernel
  refine ⟨first, ?_, (remembered _ _ _).mp entry⟩
  rw [← state, ← holds]
  exact again

end System
end LockManager
