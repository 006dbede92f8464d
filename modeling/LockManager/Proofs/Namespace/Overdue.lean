import LockManager.Proofs.Diary
import LockManager.Proofs.Eviction

set_option autoImplicit false

/-!
Looking at who has not given way in time. A live lock is looked at once, and so it is as if all of them
were looked at by themselves; the other locks are on their way out and there is nothing to report.
-/

namespace LockManager

namespace Lock

variable {x : Lock} {now timeout waited : Nat}

theorem overdue?_eq_some : x.overdue? now timeout = some waited ↔
    x.state.leaving = false ∧ x.summons.reported = false ∧ ∃ sent, x.summons.sentAt = some sent ∧
      timeout ≤ now - sent ∧ waited = now - sent := by
  show _ ↔ _ ∧ x.timeoutReported = false ∧ ∃ sent, x.blockingSentAt = some sent ∧ _
  unfold overdue?
  cases x.state.leaving <;> cases x.timeoutReported <;> cases x.blockingSentAt with
  | none => simp
  | some sent => simp [eq_comm, and_comm]

theorem overdue?_of_leaving (leaving : x.state.leaving = true) : x.overdue? now timeout = none := by
  unfold overdue?
  rw [leaving]
  rfl

variable (x now timeout) in
/-- The lock once it has been looked at. -/
def examined : Lock :=
  { x with timeoutReported := x.timeoutReported || (x.overdue? now timeout).isSome }

theorem examined_of_none (none : x.overdue? now timeout = none) : x.examined now timeout = x := by
  unfold examined
  rw [none, Option.isSome_none, Bool.or_false]

theorem examined_of_some (some : x.overdue? now timeout = some waited) :
    x.examined now timeout = { x with timeoutReported := true } := by
  unfold examined
  rw [some, Option.isSome_some, Bool.or_true]

end Lock

/-- How long ago lock `l` was asked to give way, if that is what is reported. -/
def Grievance.waited? (ns : Namespace) (l : LockId) : Grievance → Option Nat
  | .overdue h waited => if ns.handles.get? h = some l then some waited else none
  | _ => none

namespace Namespace

variable {ns : Namespace} {k l : LockId} {ls : List LockId}

/-- The report on a lock, if one is due. -/
def complaint? (ns : Namespace) (l : LockId) : Option (Owner × Grievance) :=
  ((ns.lock l).overdue? ns.clock ns.config.blockingTimeout).map fun waited =>
    ((ns.lock l).claim.owner, .overdue (ns.lock l).handle waited)

/-- What is reported of lock `l`. -/
def reportsOf (ns : Namespace) (l : LockId) : List Nat :=
  ns.checkTimeouts.1.filterMap fun report => report.2.waited? ns l

/-- One more lock is looked at. -/
def examine (p : List (Owner × Grievance) × Namespace) (l : LockId) :
    List (Owner × Grievance) × Namespace :=
  let lock := p.2.lock l
  match lock.overdue? p.2.clock p.2.config.blockingTimeout with
  | some waited =>
    (p.1 ++ [(lock.claim.owner, .overdue lock.handle waited)],
      p.2.modifyLock l ({ · with timeoutReported := true }))
  | none => (p.1, p.2)

theorem checkTimeouts_foldl (ns : Namespace) : ns.checkTimeouts = ns.live.foldl examine ([], ns) :=
  rfl

theorem examine_cases (reports : List (Owner × Grievance)) (known : l < ns.locks.size) :
    ∃ ns', examine (reports, ns) l = (reports ++ (ns.complaint? l).toList, ns') ∧
      ns'.clock = ns.clock ∧ ns'.config = ns.config ∧ ns'.locks.size = ns.locks.size ∧
        ∀ k, ns'.lock k =
          if k = l then (ns.lock k).examined ns.clock ns.config.blockingTimeout else ns.lock k := by
  unfold examine complaint?
  dsimp only
  cases overdue : (ns.lock l).overdue? ns.clock ns.config.blockingTimeout with
  | none =>
    refine ⟨ns, by simp, rfl, rfl, rfl, fun k => ?_⟩
    split
    · next same => rw [same, Lock.examined_of_none overdue]
    · rfl
  | some waited =>
    refine ⟨ns.modifyLock l ({ · with timeoutReported := true }), by simp, rfl, rfl,
      Arena.size_modify .., fun k => ?_⟩
    rw [lock_modifyLock]
    by_cases same : k = l
    · rw [if_pos same, if_pos ⟨same.symm, known⟩, same, Lock.examined_of_some overdue]
    · rw [if_neg same, if_neg fun both => same both.1.symm]

/-- One lock after another is looked at, each by itself. -/
theorem foldl_examine (reports : List (Owner × Grievance)) (nodup : ls.Nodup)
    (known : ∀ l ∈ ls, l < ns.locks.size) :
    (ls.foldl examine (reports, ns)).1 = reports ++ ls.filterMap ns.complaint? ∧
      ∀ k, (ls.foldl examine (reports, ns)).2.lock k = if k ∈ ls
        then (ns.lock k).examined ns.clock ns.config.blockingTimeout else ns.lock k := by
  induction ls generalizing ns reports with
  | nil => exact ⟨(List.append_nil _).symm, fun k => (if_neg List.not_mem_nil).symm⟩
  | cons l ls ih =>
    obtain ⟨new, nodup⟩ := List.nodup_cons.mp nodup
    obtain ⟨ns', first, clock, config, size, lock⟩ :=
      examine_cases reports (known l List.mem_cons_self)
    obtain ⟨told, after⟩ := @ih ns' (reports ++ (ns.complaint? l).toList) nodup
      fun k inside => size.symm ▸ known k (List.mem_cons_of_mem _ inside)
    have same (k : LockId) (inside : k ∈ ls) : ns'.complaint? k = ns.complaint? k := by
      have other : k ≠ l := fun here => new (here ▸ inside)
      unfold complaint?
      rw [lock, if_neg other, clock, config]
    rw [List.foldl_cons, first]
    constructor
    · rw [told, List.filterMap_congr same, List.append_assoc]
      cases due : ns.complaint? l with
      | none => rw [List.filterMap_cons_none due, Option.toList_none, List.nil_append]
      | some report => rw [List.filterMap_cons_some due, Option.toList_some, List.singleton_append]
    · intro k
      rw [after, lock, clock, config]
      by_cases here : k = l
      · rw [if_pos here, if_pos (List.mem_cons.mpr (.inl here)), if_neg (here ▸ new)]
      · rw [if_neg here]
        simp only [List.mem_cons, here, false_or]

/-- A lock that is not live is on its way out, and nothing is due for it. -/
theorem Sound.overdue?_of_not_live (sound : ns.Sound) (room : ns.Room) (gone : l ∉ ns.live)
    (now timeout : Nat) : (ns.lock l).overdue? now timeout = none := by
  by_cases known : l < ns.locks.size
  · have dead : ¬ns.Alive l := gone ∘ (sound.mem_live_iff room).mpr
    exact Lock.overdue?_of_leaving (sound.leaving_of_gone known dead)
  · rw [lock_beyond known]
    rfl

theorem filterMap_of_one (nodup : ls.Nodup) (o : Option Nat) :
    ls.filterMap (fun k => if k = l then o else none) = if l ∈ ls then o.toList else [] := by
  induction ls with
  | nil => rfl
  | cons k ls ih =>
    obtain ⟨new, nodup⟩ := List.nodup_cons.mp nodup
    by_cases here : k = l
    · subst here
      rw [if_pos List.mem_cons_self, List.filterMap_cons, if_pos rfl, ih nodup, if_neg new]
      cases o <;> rfl
    · rw [List.filterMap_cons, if_neg here, ih nodup]
      simp only [List.mem_cons, Ne.symm here, false_or]

/-- What is due is reported, once, and recorded. -/
theorem Sound.checkTimeouts (sound : ns.Sound) (names : ns.Names) (room : ns.Room) (l : LockId) :
    ns.reportsOf l = ((ns.lock l).overdue? ns.clock ns.config.blockingTimeout).toList ∧
      ns.checkTimeouts.2.lock l =
        (ns.lock l).examined ns.clock ns.config.blockingTimeout := by
  have live {k : LockId} : k ∈ ns.live ↔ ns.Alive k := sound.mem_live_iff room
  have nodup : ns.live.Nodup := names.live_nodup room
  have known (k : LockId) (inside : k ∈ ns.live) : k < ns.locks.size := (live.mp inside).1
  obtain ⟨told, after⟩ := foldl_examine [] nodup known
  rw [← checkTimeouts_foldl] at told after
  constructor
  · have mine (k : LockId) (inside : k ∈ ns.live) :
        (ns.complaint? k).bind (fun report => report.2.waited? ns l) =
          if k = l then (ns.lock l).overdue? ns.clock ns.config.blockingTimeout else none := by
      have named : ns.handles.get? (ns.lock k).handle = some k :=
        ((sound.handles room).2 _ k).mpr ⟨(live.mp inside).1, rfl, (live.mp inside).2⟩
      unfold complaint?
      by_cases same : k = l
      · rw [if_pos same, ← same]
        cases (ns.lock k).overdue? ns.clock ns.config.blockingTimeout with
        | none => rfl
        | some waited => exact if_pos named
      · rw [if_neg same]
        cases (ns.lock k).overdue? ns.clock ns.config.blockingTimeout with
        | none => rfl
        | some waited =>
          refine if_neg fun other => same ?_
          rw [named] at other
          exact Option.some.inj other
    unfold reportsOf
    rw [told, List.nil_append, List.filterMap_filterMap, List.filterMap_congr mine,
      filterMap_of_one nodup]
    split
    · rfl
    · next gone =>
      rw [sound.overdue?_of_not_live room gone]
      rfl
  · rw [after]
    split
    · rfl
    · next gone => rw [Lock.examined_of_none (sound.overdue?_of_not_live room gone _ _)]

end Namespace
end LockManager
