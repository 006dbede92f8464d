import LockManager.Proofs.Namespace.Sound
import LockManager.Task

set_option autoImplicit false

/-!
What a stage does to a namespace, and what has been done when an operation begins. Only `leave` ends
the cancel of a lock, and each cancel that begins leads to one `leave`.
-/

namespace LockManager

/-- Whatever the stage names is there, and only on the client side does a lock move. -/
def Stage.Fits (ns : Namespace) : Stage → Prop
  | .submit l _ | .changeMode l _ | .mark l _ | .leave l | .awaitRetired l | .lookAround l =>
    l < ns.locks.size
  | .hold l role => l < ns.locks.size ∧ role = ns.config.role
  | .ask r _ | .reclaim r => r < ns.resources.size
  | .move l target => l < ns.locks.size ∧ target < ns.resources.size ∧ ns.config.role = .client
  | .forget _ | .close | .look .. => True

theorem Stage.Fits.mono {ns ns' : Namespace} {stage : Stage} (fits : stage.Fits ns)
    (config : ns'.config = ns.config) (locks : ns.locks.size ≤ ns'.locks.size)
    (resources : ns.resources.size ≤ ns'.resources.size) : stage.Fits ns' := by
  cases stage with
  | hold l role => exact ⟨Nat.lt_of_lt_of_le fits.1 locks, config ▸ fits.2⟩
  | ask r requester => exact Nat.lt_of_lt_of_le fits resources
  | reclaim r => exact Nat.lt_of_lt_of_le fits resources
  | move l target =>
    exact ⟨Nat.lt_of_lt_of_le fits.1 locks, Nat.lt_of_lt_of_le fits.2.1 resources,
      config ▸ fits.2.2⟩
  | forget _ => trivial
  | close => trivial
  | look _ _ _ => trivial
  | _ => exact Nat.lt_of_lt_of_le fits locks

/-- The lock whose guard a stage needs is there, and the stage takes the guard on the right side. -/
theorem Stage.Fits.guard {ns : Namespace} {stage : Stage} {l : LockId} {side : Role}
    (fits : stage.Fits ns) (what : stage.need ns.config.role = .guard l side) :
    l < ns.locks.size ∧ side = ns.config.role := by
  cases stage <;> simp only [Stage.need, Need.guard.injEq, reduceCtorEq] at what
  all_goals obtain ⟨rfl, rfl⟩ := what
  all_goals first
    | exact ⟨fits, rfl⟩
    | exact fits

/-- What whoever carries out a stage with the queues of `r` held has made sure of: all that the stage names
is there, the lock whose guard it needs is bound to `r`, and the lock that it takes out is being canceled. -/
structure Stage.Ready (ns : Namespace) (r : ResourceId) (stage : Stage) : Prop where
  fits : stage.Fits ns
  bound : ∀ l side, stage.need ns.config.role = .guard l side → (ns.lock l).resource = r
  going : ∀ l, stage = .leave l → (ns.lock l).state = .canceling

/-- The stages that a stage may leave to be done, with the queues of `r` held. -/
inductive Stage.Yields (ns : Namespace) (r : ResourceId) : Stage → Stage → Prop where
  | mark (l : LockId) : Yields ns r (.submit l true) (.mark l false)
  | leave (l : LockId) (join : Bool) : Yields ns r (.mark l join) (.leave l)
  | join (l : LockId) : Yields ns r (.mark l true) (.awaitRetired l)
  | left (l : LockId) : Yields ns r (.leave l) (.reclaim r)
  | asked (q : ResourceId) (requester : Owner) : Yields ns r (.ask q requester) (.reclaim q)
  | moved (l : LockId) (target : ResourceId) :
      Yields ns r (.move l target) (.reclaim (ns.move l target).2.1)
  | look (q next : ResourceId) (others : List ResourceId) (seen : List Resource) :
      Yields ns r (.look q (next :: others) seen) (.look next others (seen ++ [ns.resource q]))

theorem Progress.eq_of_mem_releasing {ns : Namespace} {r : ResourceId} {outcome : Option Outcome}
    {next : Stage} (inside : next ∈ (releasing ns r outcome).next) : next = .reclaim r := by
  simp only [releasing] at inside
  split at inside
  · exact List.mem_singleton.mp inside
  · cases inside

theorem Stage.yields_of_mem_next {ns : Namespace} {r : ResourceId} {stage next : Stage}
    (inside : next ∈ (stage.carryOut ns r).next) : stage.Yields ns r next := by
  cases stage with
  | submit l discard =>
    simp only [carryOut] at inside
    split at inside
    · cases inside
    · cases discard with
      | true => exact List.mem_singleton.mp inside ▸ .mark l
      | false => cases inside
  | changeMode l mode =>
    simp only [carryOut] at inside
    split at inside <;> cases inside
  | mark l join =>
    simp only [carryOut] at inside
    split at inside
    · exact List.mem_singleton.mp inside ▸ .leave l join
    · cases join with
      | true => exact List.mem_singleton.mp inside ▸ .join l
      | false => cases inside
  | leave l => exact Progress.eq_of_mem_releasing inside ▸ .left l
  | ask q requester => exact Progress.eq_of_mem_releasing inside ▸ .asked q requester
  | move l target => exact Progress.eq_of_mem_releasing inside ▸ .moved l target
  | look q others seen =>
    cases others with
    | nil => cases inside
    | cons next others => exact List.mem_singleton.mp inside ▸ .look q next others seen
  | _ => cases inside

namespace Namespace

/-- How many cancels of the lock have begun and not ended. -/
def going (ns : Namespace) (l : LockId) : Nat := if (ns.lock l).state = .canceling then 1 else 0

theorem going_congr {ns ns' : Namespace} {l : LockId}
    (same : (ns'.lock l).state = .canceling ↔ (ns.lock l).state = .canceling) :
    ns'.going l = ns.going l := by
  simp only [going, same]

end Namespace

/-- What carrying out a stage has done. -/
structure Effect (ns : Namespace) (stage : Stage) (p : Progress) : Prop where
  sound : p.space.Sound
  config : p.space.config = ns.config
  size : p.space.locks.size = ns.locks.size
  grown : ns.resources.size ≤ p.space.resources.size
  bound : ∀ k, (∀ target, stage ≠ .move k target) →
    (p.space.lock k).resource = (ns.lock k).resource
  going : ∀ k, p.space.going k + [stage].count (.leave k) = ns.going k + p.next.count (.leave k)
  fits : ∀ next ∈ p.next, next.Fits p.space

namespace Effect

open Namespace (Alike Becomes Onward Left)

variable {ns : Namespace} {stage : Stage} {p : Progress}

theorem of_onward (sound : ns.Sound) (onward : Onward ns p.space)
    (other : ∀ k, stage ≠ .leave k) (none : ∀ k, Stage.leave k ∉ p.next)
    (fits : ∀ next ∈ p.next, next.Fits p.space) : Effect ns stage p := by
  have lock := onward.keeps.lock
  refine ⟨sound.onward onward, onward.keeps.config, onward.keeps.size, onward.becomes.grown,
    fun k _ => (lock k).resource, fun k => ?_, fits⟩
  rw [Namespace.going_congr ((lock k).state_iff rfl), List.count_eq_zero.mpr (none k),
    List.count_eq_zero.mpr]
  intro inside
  exact other k (List.mem_singleton.mp inside).symm

theorem of_alike (sound : ns.Sound) (same : Alike ns p.space) (other : ∀ k, stage ≠ .leave k)
    (none : ∀ k, Stage.leave k ∉ p.next) (fits : ∀ next ∈ p.next, next.Fits p.space) :
    Effect ns stage p :=
  of_onward sound (same.onward sound) other none fits

/-- Nothing is to come. -/
theorem last_of_onward (sound : ns.Sound) (onward : Onward ns p.space)
    (other : ∀ k, stage ≠ .leave k) (last : p.next = []) : Effect ns stage p := by
  apply of_onward sound onward other
  · intro k
    rw [last]
    exact List.not_mem_nil
  · intro next chosen
    rw [last] at chosen
    cases chosen

theorem last_of_alike (sound : ns.Sound) (same : Alike ns p.space) (other : ∀ k, stage ≠ .leave k)
    (last : p.next = []) : Effect ns stage p :=
  last_of_onward sound (same.onward sound) other last

/-- Then a reference is dropped. -/
theorem releasing {ns' : Namespace} (effect : Effect ns stage { space := ns' }) {r : ResourceId}
    (inside : r < ns'.resources.size) (outcome : Option Outcome) :
    Effect ns stage (.releasing ns' r outcome) := by
  have same := ns'.alike_dropRef r
  have lock : ∀ k, ((ns'.dropRef r).lock k).outline = (ns'.lock k).outline := same.lock
  refine ⟨effect.sound.alike same, ?_, same.size.trans effect.size,
    Nat.le_trans effect.grown same.grown, fun k still => ?_, fun k => ?_, fun next chosen => ?_⟩
  · exact (congrArg Ledger.config same.ledger).trans effect.config
  · exact (congrArg Lock.resource (lock k)).trans (effect.bound k still)
  · have still : (ns'.dropRef r).going k = ns'.going k :=
      Namespace.going_congr (by rw [← Lock.outline_state, lock k, Lock.outline_state])
    have none : (Progress.releasing ns' r outcome).next.count (.leave k) = 0 := by
      simp only [Progress.releasing]
      split <;> simp
    rw [none]
    exact (congrArg (· + [stage].count (.leave k)) still).trans (effect.going k)
  · simp only [Progress.releasing] at chosen
    split at chosen
    · rw [List.mem_singleton.mp chosen]
      exact Nat.lt_of_lt_of_le inside same.grown
    · cases chosen

theorem submit {l : LockId} {discard : Bool} {r : ResourceId} (sound : ns.Sound)
    (known : l < ns.locks.size) (bound : (ns.lock l).resource = r) :
    Effect ns (.submit l discard) (Stage.carryOut ns r (.submit l discard)) := by
  simp only [Stage.carryOut]
  split
  · next reply ns' done =>
    exact last_of_onward sound (sound.submit known bound done) (by simp) rfl
  · next e _ =>
    cases discard with
    | true =>
      have same := ns.alike_silence [l]
      apply of_alike sound same (by simp)
      · intro k
        simp
      · intro next chosen
        rw [List.mem_singleton.mp chosen]
        exact Nat.lt_of_lt_of_eq known same.size.symm
    | false => exact last_of_alike sound (.refl ns) (by simp) rfl

theorem changeMode {l : LockId} {mode : Mode} {r : ResourceId} (sound : ns.Sound)
    (known : l < ns.locks.size) (bound : (ns.lock l).resource = r) :
    Effect ns (.changeMode l mode) (Stage.carryOut ns r (.changeMode l mode)) := by
  simp only [Stage.carryOut]
  split
  · next done =>
    exact last_of_onward sound (sound.changeMode known bound done) (by simp) rfl
  · exact last_of_alike sound (.refl ns) (by simp) rfl

/-- One cancel has begun, and one `leave` is to come. -/
theorem mark {l : LockId} {join : Bool} {r : ResourceId} (sound : ns.Sound)
    (known : l < ns.locks.size) :
    Effect ns (.mark l join) (Stage.carryOut ns r (.mark l join)) := by
  simp only [Stage.carryOut]
  split
  · next ns' marked =>
    obtain ⟨stays, turns⟩ := Namespace.mark_some known marked
    have state : (ns.lock l).state ≠ .canceling := by
      intro canceling
      rw [canceling] at stays
      cases stays
    refine ⟨sound.mark known marked, congrArg Ledger.config turns.ledger, turns.size, turns.grown,
      fun k _ => ?_, fun k => ?_, fun next chosen => ?_⟩
    · rw [← Lock.outline_resource, turns.lock]
      by_cases same : k = l
      · rw [same, Ledger.lock_set_self]
        rfl
      · rw [Ledger.lock_set_of_ne _ _ same]
        rfl
    · have now : (ns'.lock k).state = ((ns.ledger.set l
          ((ns.ledger.lock l).enter .canceling)).lock k).state := by
        rw [← turns.lock, Lock.outline_state]
      by_cases same : k = l
      · subst same
        rw [Ledger.lock_set_self] at now
        simp only [Namespace.going, now, Lock.enter, if_true, state, if_false]
        simp
      · rw [Ledger.lock_set_of_ne _ _ same] at now
        rw [Namespace.going_congr (iff_of_eq (congrArg (· = _) now))]
        have other : l ≠ k := Ne.symm same
        simp [other]
    · rw [List.mem_singleton.mp chosen]
      exact Nat.lt_of_lt_of_eq known turns.size.symm
  · apply of_alike sound (.refl ns) (by simp)
    · intro k
      cases join <;> simp
    · intro next chosen
      cases join with
      | true =>
        rw [List.mem_singleton.mp chosen]
        exact known
      | false => cases chosen

theorem of_left {l : LockId} {ns' : Namespace} {b : Ledger} (left : Left ns l ns' b)
    (canceling : (ns.lock l).state = .canceling) : Effect ns (.leave l) { space := ns' } := by
  have lock : ∀ k, (ns'.lock k).outline = (b.set l { b.lock l with retired := true }).lock k := by
    intro k
    rw [← left.ledger]
    rfl
  refine ⟨left.sound, (congrArg Ledger.config left.ledger).trans left.keeps.config,
    (congrArg Ledger.size left.ledger).trans left.keeps.size, left.grown, fun k _ => ?_,
    fun k => ?_, by simp⟩
  · rw [← Lock.outline_resource, lock]
    by_cases same : k = l
    · rw [same, Ledger.lock_set_self]
      exact left.keeps.left_of_leave.2.1
    · rw [Ledger.lock_set_of_ne _ _ same]
      exact (left.keeps.stays_of_leave same).resource
  · have now : (ns'.lock k).state =
        ((b.set l { b.lock l with retired := true }).lock k).state := by
      rw [← lock, Lock.outline_state]
    by_cases same : k = l
    · subst same
      have canceled := left.keeps.left_of_leave.2.2
      rw [Ledger.lock_set_self] at now
      simp only [Namespace.going, now, canceled, canceling, if_true]
      simp
    · rw [Ledger.lock_set_of_ne _ _ same] at now
      have still : ns'.going k = ns.going k := Namespace.going_congr (by
        rw [now]
        exact (left.keeps.stays_of_leave same).state_iff rfl)
      have other : l ≠ k := Ne.symm same
      simp [still, other]

theorem leave {l : LockId} {r : ResourceId} (sound : ns.Sound) (known : l < ns.locks.size)
    (bound : (ns.lock l).resource = r) (canceling : (ns.lock l).state = .canceling) :
    Effect ns (.leave l) (Stage.carryOut ns r (.leave l)) := by
  obtain ⟨b, left⟩ := sound.leave known bound canceling
  have inside : r < ns.resources.size := bound ▸ sound.placed l known
  exact (of_left left canceling).releasing (Nat.lt_of_lt_of_le inside left.grown) none

theorem of_becomes {l : LockId} {target : ResourceId} {ns' : Namespace} {b : Ledger}
    (moved : ns'.Sound) (turns : Becomes ns b ns') (same : b = ns.ledger ∨ b = ns.ledger.set l
      { ns.ledger.lock l with resource := target, key := (ns.resource target).key }) :
    Effect ns (.move l target) { space := ns' } := by
  have each : ∀ k, (b.lock k).state = (ns.lock k).state ∧
      (k ≠ l → (b.lock k).resource = (ns.lock k).resource) := by
    intro k
    rcases same with rfl | rfl
    · exact ⟨rfl, fun _ => rfl⟩
    · by_cases here : k = l
      · rw [here, Ledger.lock_set_self]
        exact ⟨rfl, fun other => absurd rfl other⟩
      · rw [Ledger.lock_set_of_ne _ _ here]
        exact ⟨rfl, fun _ => rfl⟩
  have config : b.config = ns.config := by
    rcases same with rfl | rfl <;> rfl
  have size : b.size = ns.locks.size := by
    rcases same with rfl | rfl <;> rfl
  refine ⟨moved, (congrArg Ledger.config turns.ledger).trans config, turns.size.trans size,
    turns.grown, fun k still => ?_, fun k => ?_, by simp⟩
  · rw [← Lock.outline_resource, turns.lock]
    apply (each k).2
    intro here
    exact still target (here ▸ rfl)
  · have still : ns'.going k = ns.going k :=
      Namespace.going_congr (by rw [← Lock.outline_state, turns.lock, (each k).1])
    simp [still]

theorem move {l : LockId} {target : ResourceId} {r : ResourceId} (sound : ns.Sound)
    (known : l < ns.locks.size) (inside : target < ns.resources.size) :
    Effect ns (.move l target) (Stage.carryOut ns r (.move l target)) := by
  obtain ⟨moved, b, turns, same⟩ := sound.move known inside
  have unneeded : (ns.move l target).2.1 < ns.resources.size := by
    unfold Namespace.move
    dsimp only
    split
    · exact sound.placed l known
    · exact inside
  exact (of_becomes moved turns same).releasing (Nat.lt_of_lt_of_le unneeded turns.grown) _

end Effect

theorem Stage.Ready.effect {ns : Namespace} {stage : Stage} {r : ResourceId}
    (ready : stage.Ready ns r) (sound : ns.Sound) : Effect ns stage (stage.carryOut ns r) := by
  obtain ⟨fits, bound, going⟩ := ready
  cases stage with
  | submit l discard => exact .submit sound fits (bound l _ rfl)
  | changeMode l mode => exact .changeMode sound fits (bound l _ rfl)
  | mark l join => exact .mark sound fits
  | leave l => exact .leave sound fits (bound l _ rfl) (going l rfl)
  | awaitRetired l => exact .last_of_alike sound (.refl ns) (by simp) rfl
  | ask q requester =>
    have onward := sound.ask fits requester
    have done : Effect ns (.ask q requester) { space := (ns.ask q requester).2 } :=
      .last_of_onward sound onward (by simp) rfl
    exact done.releasing (Nat.lt_of_lt_of_le fits onward.becomes.grown) _
  | reclaim q => exact .last_of_alike sound (ns.alike_reclaim q) (by simp) rfl
  | move l target => exact .move sound fits.1 fits.2.1
  | forget owner => exact .last_of_alike sound (ns.alike_forget owner) (by simp) rfl
  | close => exact .last_of_alike sound ns.alike_closeDispatcher (by simp) rfl
  | look q others seen =>
    cases others with
    | nil => exact .last_of_alike sound (.refl ns) (by simp) rfl
    | cons next others =>
      refine .of_alike sound (.refl ns) (by simp) (fun k => ?_) fun next chosen => ?_
      · simp [Stage.carryOut]
      · rw [List.mem_singleton.mp chosen]
        trivial
  | lookAround l => exact .last_of_alike sound (.refl ns) (by simp) rfl
  | hold l role => exact .last_of_alike sound (.refl ns) (by simp) rfl

end LockManager
