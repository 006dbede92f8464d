import LockManager.Proofs.Muted
import LockManager.Proofs.Replays
import LockManager.Proofs.System.Steps

set_option autoImplicit false

/-!
Whether a cancel prevails. Once it has been recorded on a lock, whatever else is in progress leaves the
lock alone; and whoever asked for the cancel, first or not, is answered when the lock has gone.
-/

namespace LockManager
namespace System

variable {config : Config} {s t u : System} {i : TaskId} {l : LockId}

/-- The step leaves a lock on its way out alone. It stays on its way, has no entries but those it had,
is sent nothing, and nothing begins to be delivered for it. -/
structure Shuns (s t : System) (l : LockId) : Prop where
  leaving : (t.space.lock l).state.leaving = true
  entries : ∀ r, (t.space.resource r).queues.of l = (s.space.resource r).queues.of l ∨
    (t.space.resource r).queues.of l = {}
  pending : (t.space.lock l).pending = (s.space.lock l).pending ∨ (t.space.lock l).pending = []
  deliveries : t.space.dispatcher.deliveries = s.space.dispatcher.deliveries ∨
    ∃ new, Hands s new t ∧ ∀ d ∈ new, d.lock ≠ l

theorem known_of_leaving (leaving : (s.space.lock l).state.leaving = true) :
    l < s.space.locks.size := by
  by_contra beyond
  rw [Namespace.lock_beyond beyond] at leaving
  cases leaving

theorem Reachable.delivering (reachable : Reachable config s) : s.space.mail.Delivering [] [] := by
  obtain ⟨queued, handed, recorded⟩ := reachable_iff_recorded.mp reachable
  exact recorded.accounted.delivering

/-- Whatever begins to be delivered is handed over for a lock that is not muted. -/
theorem Reachable.begins (reachable : Reachable config s) (step : Step s t) :
    t.space.dispatcher.deliveries = s.space.dispatcher.deliveries ∨
      ∃ new, Hands s new t ∧ ∀ d ∈ new, ¬(s.space.lock d.lock).Muted := by
  rcases step_iff.mp step with works | ⟨new, hands⟩
  · exact .inl (works.relays reachable.sound reachable.delivering).feeds.deliveries
  · exact .inr ⟨new, hands, fun d => hands.not_muted⟩

theorem Reachable.shuns (reachable : Reachable config s)
    (leaving : (s.space.lock l).state.leaving = true) (step : Step s t) : Shuns s t l := by
  have sound := reachable.sound
  have known := known_of_leaving leaving
  have fades := sound.space.ledger.coherent.fades (sound.steps step) known leaving
  have muted : (s.space.lock l).Muted := .inr leaving
  refine ⟨fades.leaving, fades.entries, (sound.ignores step l muted).2, ?_⟩
  refine (reachable.begins step).imp_right fun ⟨new, hands, heard⟩ => ⟨new, hands, ?_⟩
  exact fun d begun same => heard d begun (same.symm ▸ muted)

theorem Reachable.leaving_of_reaches (reachable : Reachable config s)
    (leaving : (s.space.lock l).state.leaving = true) (run : Reaches s t) :
    (t.space.lock l).state.leaving = true := by
  induction run with
  | refl => exact leaving
  | step before last ih => exact ((reachable.reaches before).shuns ih last).leaving

/-! ### Being answered -/

/-- Task `i` does not end before the lock does. -/
def Pursues (s : System) (i : TaskId) (l : LockId) : Prop :=
  s.space.Alive l → ∃ stage ∈ (s.task i).todo, stage.Ends l

theorem Sound.pursues_step (sound : s.Sound) (known : l < s.space.locks.size)
    (old : i < s.tasks.size) (pursues : Pursues s i l) (step : Step s t) : Pursues t i l := by
  intro alive
  obtain ⟨stage, member, ends⟩ := pursues ((sound.lasts step known).alive alive)
  rcases todo_step step old with same | done
  · exact ⟨stage, same ▸ member, ends⟩
  · obtain ⟨first, rest, q, todo, prepared, space, tasks⟩ := Sound.carryOut_cases done
    have mine : (t.task i).todo = (first.carryOut s.space q).next ++ rest :=
      congrArg Task.todo (task_of_modify tasks old)
    rw [mine]
    rw [todo] at member
    rcases List.mem_cons.mp member with rfl | later
    · rw [space] at alive
      obtain ⟨next, new, about⟩ := sound.ends_carryOut todo prepared ends alive
      exact ⟨next, List.mem_append_left _ new, about⟩
    · exact ⟨stage, List.mem_append_right _ later, ends⟩

theorem size_le_of_step (step : Step s t) : s.tasks.size ≤ t.tasks.size := by
  cases step with
  | start op => exact (Arena.size_alloc ..).symm ▸ Nat.le_succ _
  | hold found => exact (Arena.size_alloc ..).symm ▸ Nat.le_succ _
  | take i taken =>
    obtain ⟨p, -, -, rfl⟩ := take?_eq taken
    exact Nat.le_of_eq (Arena.size_modify ..).symm
  | carryOut i done =>
    obtain ⟨stage, rest, q, -, -, -, tasks⟩ := Sound.carryOut_cases done
    rw [tasks]
    exact Nat.le_of_eq (Arena.size_modify ..).symm
  | _ => exact Nat.le_refl _

theorem size_le_of_reaches (run : Reaches s t) : s.tasks.size ≤ t.tasks.size := by
  induction run with
  | refl => exact Nat.le_refl _
  | step _ last ih => exact Nat.le_trans ih (size_le_of_step last)

theorem Sound.pursues_reaches (sound : s.Sound) (known : l < s.space.locks.size)
    (old : i < s.tasks.size) (pursues : Pursues s i l) (run : Reaches s t) : Pursues t i l := by
  induction run with
  | refl => exact pursues
  | step before last ih =>
    exact (sound.reaches before).pursues_step (Nat.lt_of_lt_of_le known (sound.grown before))
      (Nat.lt_of_lt_of_le old (size_le_of_reaches before)) ih last

/-- A cancel of the lock that a handle names goes on until the lock is done with. -/
theorem Reachable.pursues_start (reachable : Reachable config s) (room : s.space.Room)
    (known : l < s.space.locks.size) :
    Pursues (s.start (.cancel (s.space.lock l).handle)) s.tasks.size l := by
  have sound := reachable.sound
  have step : Step s (s.start (.cancel (s.space.lock l).handle)) := .start s _
  intro alive
  obtain ⟨-, stays⟩ := (sound.lasts step known).alive alive
  have found := ((sound.space.handles room).2 _ l).mpr ⟨known, rfl, stays⟩
  have live := reachable.numbered.status_eq_live.mpr found
  simp only [task_start, Task.start, live]
  exact ⟨.mark l true, List.mem_singleton_self _, rfl, rfl⟩

/-- A lock that is done with has no entries, and nobody's handle names it. -/
theorem Sound.gone (sound : s.Sound) (room : s.space.Room) (known : l < s.space.locks.size)
    (gone : ¬s.space.Alive l) :
    (∀ r, (s.space.resource r).queues.of l = {}) ∧ ∀ h, s.space.handles.get? h ≠ some l := by
  have ledger := sound.space.ledger
  have retired : (s.space.lock l).retired = true :=
    Bool.eq_true_of_not_eq_false fun stays => gone ⟨known, stays⟩
  have canceled := (ledger.retired l known).mp retired
  have own := ledger.coherent.seated l known
  rw [Lock.Seated, canceled] at own
  refine ⟨ledger.coherent.home_of_empty known own.of_canceled.2, fun h found => ?_⟩
  obtain ⟨-, -, stays⟩ := ((sound.space.handles room).2 h l).mp found
  exact gone ⟨known, stays⟩

/-- Once a cancel has been recorded on a lock, every later step leaves the lock alone. Whenever a
cancel of its handle has been answered with success, whether it was the first or not, the lock is in
no queue and the handle no longer resolves to it (as long as slot numbers fit a handle, so that a
handle names one lock). -/
theorem cancel_prevails (reachable : Reachable config s) (known : l < s.space.locks.size) :
    ((s.space.lock l).state.leaving = true →
      ∀ t u, Reaches s t → Step t u → Shuns t u l) ∧
    ∀ t answer, Reaches (s.start (.cancel (s.space.lock l).handle)) t → t.space.Room →
      (t.task s.tasks.size).finished = true →
      (t.task s.tasks.size).outcome = some (.ok answer) →
        (∀ r, (t.space.resource r).queues.of l = {}) ∧
          t.space.handles.get? (s.space.lock l).handle ≠ some l := by
  constructor
  · intro leaving t u run step
    exact (reachable.reaches run).shuns (reachable.leaving_of_reaches leaving run) step
  · intro t answer run room finished _
    have step : Step s (s.start (.cancel (s.space.lock l).handle)) := .start s _
    have all := (Reaches.single step).trans run
    have sound := (reachable.reaches all).sound
    have begun := reachable.sound.step step
    have known' := Nat.lt_of_lt_of_le known (reachable.sound.grows step)
    have mine : s.tasks.size < (s.start (.cancel (s.space.lock l).handle)).tasks.size :=
      Nat.lt_of_lt_of_eq (Nat.lt_succ_self _) (Arena.size_alloc ..).symm
    have pursues := begun.pursues_reaches known' mine
      (reachable.pursues_start (reachable.sound.room_of_reaches all room) known) run
    have gone : ¬t.space.Alive l := by
      intro alive
      obtain ⟨stage, member, -⟩ := pursues alive
      rw [List.isEmpty_iff.mp finished] at member
      cases member
    obtain ⟨entries, nobody⟩ :=
      sound.gone room (Nat.lt_of_lt_of_le known' (begun.grown run)) gone
    exact ⟨entries, nobody _⟩

/-- An exclusive lock is to be converted and canceled, and the cancel has been recorded. -/
def overtakenConversion : System :=
  (fresh {}).follow
    (Move.through (.enqueue { key := ⟨1, 0⟩, mode := .exclusive, owner := ⟨"a"⟩ }) 0 ++
      [.start (.convert ⟨0, 1⟩ .protectedRead), .start (.cancel ⟨0, 1⟩), .carryOut 2])

/-- The conversion is refused then, and who asks for a second cancel waits for the end of the first. -/
theorem cancel_prevails_joined :
    (overtakenConversion.space.lock 0).state = .canceling ∧
      Shuns overtakenConversion (overtakenConversion.start (.cancel ⟨0, 1⟩)) 0 ∧
      ∃ t, Reaches (overtakenConversion.start (.cancel ⟨0, 1⟩)) t ∧
        (t.task 1).outcome =
          some (.error (.protocolViolation ⟨0, 1⟩ .canceling .convert)) ∧
        (t.task 3).outcome = some (.ok (.canceled .canceled)) ∧
        (∀ r, (t.space.resource r).queues.of 0 = {}) ∧ t.space.handles.get? ⟨0, 1⟩ ≠ some 0 := by
  let moves : List Move :=
    [.carryOut 3, .take 1, .take 1, .carryOut 1, .take 2, .take 2, .carryOut 2, .carryOut 3]
  have reachable : Reachable {} overtakenConversion := reachable_follow rfl _
  obtain ⟨shuns, answered⟩ := cancel_prevails reachable (l := 0) (by decide +kernel)
  have run := (overtakenConversion.start (.cancel ⟨0, 1⟩)).reaches_follow moves
  refine ⟨by decide +kernel, shuns (by decide +kernel) _ _ .refl (.start _ _), _, run,
    by decide +kernel, by decide +kernel, ?_⟩
  exact answered _ (.canceled .canceled) run (by decide +kernel) (by decide +kernel)
    (by decide +kernel)

end System
end LockManager
