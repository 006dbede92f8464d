import LockManager.Proofs.Stage

set_option autoImplicit false

/-!
What has been done when an operation begins, and what a task holds on its way.
-/

namespace LockManager

theorem HandleTable.mem_entries_of_status {α : Type} {t : HandleTable α} {h : Handle} {v : α}
    (found : t.status h = .live v) : v ∈ t.entries := by
  unfold status at found
  split at found
  · cases found
  · next slot there =>
    split at found
    · cases found
    · split at found
      · split at found
        · next entry occupied =>
          cases found
          have filled : t.slots[h.index.toNat]? = some ⟨slot.generation, some v⟩ := by
            rw [there, ← occupied]
          exact mem_entries_of_slot filled
        · cases found
      · split at found <;> cases found

namespace Namespace

variable {ns : Namespace}

theorem Sound.lookup (sound : ns.Sound) {h : Handle} {l : LockId} (found : ns.lookup h = .ok l) :
    l < ns.locks.size := by
  unfold Namespace.lookup at found
  split at found
  · next there =>
    cases found
    exact sound.listed l (HandleTable.mem_entries_of_get? there)
  · cases found

end Namespace

/-- An operation has begun as the task `t`. -/
structure Begun (ns : Namespace) (t : Task) (ns' : Namespace) : Prop where
  sound : ns'.Sound
  config : ns'.config = ns.config
  size : ns.locks.size ≤ ns'.locks.size
  grown : ns.resources.size ≤ ns'.resources.size
  lock : ∀ k, k < ns.locks.size → (ns'.lock k).outline = (ns.lock k).outline
  fresh : ∀ k, ns.locks.size ≤ k → k < ns'.locks.size → (ns'.lock k).state = .new
  place : t.place = .outside
  none : ∀ k, Stage.leave k ∉ t.todo
  fits : ∀ stage ∈ t.todo, stage.Fits ns'

namespace Begun

open Namespace (Alike Extends)

variable {ns ns' : Namespace} {t : Task}

theorem of_alike (sound : ns.Sound) (same : Alike ns ns') (place : t.place = .outside)
    (none : ∀ k, Stage.leave k ∉ t.todo) (fits : ∀ stage ∈ t.todo, stage.Fits ns') :
    Begun ns t ns' := by
  have size : ns'.locks.size = ns.locks.size := same.size
  refine ⟨sound.alike same, congrArg Ledger.config same.ledger, Nat.le_of_eq size.symm, same.grown,
    fun k _ => same.lock k, fun k above below => ?_, place, none, fits⟩
  exact absurd (Nat.lt_of_lt_of_eq below size) (Nat.not_lt_of_le above)

theorem of_extends (more : Extends ns ns') (place : t.place = .outside)
    (none : ∀ k, Stage.leave k ∉ t.todo) (fits : ∀ stage ∈ t.todo, stage.Fits ns') :
    Begun ns t ns' := by
  refine ⟨more.sound, more.config, more.size ▸ Nat.le_succ _, more.grown, more.lock, ?_, place,
    none, fits⟩
  intro k above below
  rw [more.size] at below
  rw [Nat.le_antisymm (Nat.le_of_lt_succ below) above]
  exact more.new

/-- The answer is known at once. -/
theorem answered (sound : ns.Sound) (outcome : Outcome) : Begun ns (.answered outcome) ns :=
  of_alike sound (.refl ns) rfl (by simp [Task.answered]) (by simp [Task.answered])

/-- One stage is to come. -/
theorem single (sound : ns.Sound) (same : Alike ns ns') {stage : Stage}
    (other : ∀ k, stage ≠ .leave k) (fits : stage.Fits ns') : Begun ns { todo := [stage] } ns' := by
  apply of_alike sound same rfl
  · intro k inside
    exact other k (List.mem_singleton.mp inside).symm
  · intro next chosen
    rw [List.mem_singleton.mp chosen]
    exact fits

/-- A cancel of each of `ls` is to come, and then `last`. -/
theorem sweep (sound : ns.Sound) (same : Alike ns ns') {ls : List LockId}
    (known : ∀ l ∈ ls, l < ns.locks.size) (last : Stage) (other : ∀ k, last ≠ .leave k)
    (fits : last.Fits ns') (outcome : Option Outcome) :
    Begun ns { todo := ls.map (.mark · true) ++ [last], outcome } ns' := by
  apply of_alike sound same rfl
  · intro k inside
    rcases List.mem_append.mp inside with cancel | rest
    · obtain ⟨l, -, same⟩ := List.mem_map.mp cancel
      cases same
    · exact other k (List.mem_singleton.mp rest).symm
  · intro next chosen
    rcases List.mem_append.mp chosen with cancel | rest
    · obtain ⟨l, inside, rfl⟩ := List.mem_map.mp cancel
      exact Nat.lt_of_lt_of_eq (known l inside) same.size.symm
    · rw [List.mem_singleton.mp rest]
      exact fits

end Begun

namespace Task

variable {ns : Namespace}

theorem begun_enqueue (sound : ns.Sound) (req : LockRequest) :
    Begun ns (start ns (.enqueue req)).1 (start ns (.enqueue req)).2 := by
  unfold start
  rcases ns.register_cases req with ⟨e, refused⟩ | ⟨l, -, copy⟩ | ⟨valid, fresh⟩
  · simp only [refused]
    exact .answered sound _
  · simp only [copy]
    exact .answered sound _
  · simp only [fresh]
    have more := sound.addLock valid
    refine .of_extends more rfl (by simp) fun next chosen => ?_
    rw [List.mem_singleton.mp chosen]
    exact Nat.lt_of_lt_of_eq (Nat.lt_succ_self _) more.size.symm

theorem begun_create (sound : ns.Sound) (req : LockRequest) :
    Begun ns (start ns (.create req)).1 (start ns (.create req)).2 := by
  unfold start Namespace.createLock
  rcases ns.register_cases req with ⟨e, refused⟩ | ⟨l, -, copy⟩ | ⟨valid, fresh⟩
  · simp only [refused]
    exact .answered sound _
  · simp only [copy]
    exact .answered sound _
  · simp only [fresh]
    refine .of_extends (sound.addLock valid) rfl (fun _ => ?_) fun next chosen => ?_
    · exact List.not_mem_nil
    · cases chosen

theorem begun_convert (sound : ns.Sound) (h : Handle) (mode : Mode) :
    Begun ns (start ns (.convert h mode)).1 (start ns (.convert h mode)).2 := by
  unfold start
  cases running : ns.ensureRunning with
  | error e =>
    dsimp only
    exact .answered sound _
  | ok _ =>
    cases found : ns.lookup h with
    | error e =>
      simp only [found]
      exact .answered sound _
    | ok l =>
      simp only [found]
      exact .single sound (.refl ns) (by simp) (sound.lookup found)

theorem begun_cancel (sound : ns.Sound) (h : Handle) :
    Begun ns (start ns (.cancel h)).1 (start ns (.cancel h)).2 := by
  unfold start
  cases found : ns.handles.status h with
  | live l =>
    simp only [found]
    refine .of_alike sound (.refl ns) rfl (fun k => ?_) fun next chosen => ?_
    · simp
    · rw [List.mem_singleton.mp chosen]
      exact sound.listed l (HandleTable.mem_entries_of_status found)
  | retired =>
    simp only [found]
    exact .answered sound _
  | unknown =>
    simp only [found]
    exact .answered sound _

/-- Only on the client side is there more to do. -/
theorem begun_rebind (sound : ns.Sound) (h : Handle) (k : Key) :
    Begun ns (start ns (.rebind h k)).1 (start ns (.rebind h k)).2 := by
  unfold start
  cases found : ns.lookup h with
  | error e =>
    simp only [found]
    exact .answered sound _
  | ok l =>
    simp only [found]
    cases role : ns.config.role with
    | server =>
      dsimp only
      exact .answered sound _
    | client =>
      dsimp only
      have same := ns.alike_findOrCreate k
      have config : (ns.findOrCreate k).2.config = ns.config := congrArg Ledger.config same.ledger
      refine .single sound same (by simp) ⟨?_, ns.findOrCreate_lt sound.indexed k, ?_⟩
      · exact Nat.lt_of_lt_of_eq (sound.lookup found) same.size.symm
      · rw [config, role]

theorem begun_glimpse (sound : ns.Sound) (k : Key) (requester : Owner) :
    Begun ns (start ns (.glimpse k requester)).1 (start ns (.glimpse k requester)).2 := by
  unfold start
  cases running : ns.ensureRunning with
  | error e =>
    dsimp only
    exact .answered sound _
  | ok _ =>
    dsimp only
    cases found : ns.index.get? k with
    | none =>
      simp only [Namespace.find?, found]
      exact .answered sound _
    | some r =>
      simp only [Namespace.find?, found]
      have same := ns.alike_addRef r
      exact .single sound same (by simp)
        (Nat.lt_of_lt_of_le (sound.indexed k r found) same.grown)

/-- The operations that look a lock up and then do one thing with it. -/
theorem begun_lookup (sound : ns.Sound) {h : Handle} {stage : LockId → Stage}
    {begun : Task × Namespace}
    (begins : begun = match ns.lookup h with
      | .error e => (answered (.error e), ns)
      | .ok l => ({ todo := [stage l] }, ns))
    (other : ∀ l k, stage l ≠ .leave k) (fits : ∀ l, l < ns.locks.size → (stage l).Fits ns) :
    Begun ns begun.1 begun.2 := by
  rw [begins]
  cases found : ns.lookup h with
  | error e => exact .answered sound _
  | ok l => exact .single sound (.refl ns) (other l) (fits l (sound.lookup found))

theorem begun_start (sound : ns.Sound) (op : Operation) :
    Begun ns (start ns op).1 (start ns op).2 := by
  cases op with
  | enqueue req => exact begun_enqueue sound req
  | create req => exact begun_create sound req
  | enqueueLock h => exact begun_lookup sound rfl (by simp) fun _ known => known
  | convert h mode => exact begun_convert sound h mode
  | cancel h => exact begun_cancel sound h
  | rebind h k => exact begun_rebind sound h k
  | glimpse k requester => exact begun_glimpse sound k requester
  | evict owner =>
    refine .sweep sound (ns.alike_silence _) (fun l inside => ?_) (.forget owner) (by simp)
      trivial _
    exact sound.listed l (List.mem_of_mem_filter inside)
  | shutdown =>
    unfold start
    dsimp only
    split
    · exact .answered sound _
    · exact .sweep sound ns.alike_beginShutdown sound.listed .close (by simp) trivial _
  | inspect k =>
    unfold start
    dsimp only
    cases ns.index.get? k with
    | none => exact .answered sound _
    | some r => exact .single sound (.refl ns) (by simp) trivial
  | survey =>
    unfold start
    dsimp only
    cases ns.indexed with
    | nil => exact .answered sound _
    | cons r rest => exact .single sound (.refl ns) (by simp) trivial
  | inspectAt h => exact begun_lookup sound rfl (by simp) fun _ known => known

end Task
end LockManager
