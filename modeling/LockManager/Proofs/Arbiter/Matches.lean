import LockManager.Proofs.Arbiter
import LockManager.Proofs.Arbiter.Messages

set_option autoImplicit false

/-!
What is decided on a resource depends on the locks that have entries there, and on those only as far as
the ledger knows them: not on what they have been sent, and not on anybody else.
-/

namespace LockManager
namespace Arbiter

/-- The queues are the same, all entries there are of locks that `P` holds of, and what the ledger knows
of such a lock is the same. -/
structure Matches (P : LockId → Prop) (a b : Arbiter) : Prop where
  config : b.config = a.config
  queues : b.queues = a.queues
  size : b.locks.size = a.locks.size
  within : ∀ e ∈ a.queues.entries, P e.claim.id
  lock : ∀ k, P k → (b.lock k).outline = (a.lock k).outline

namespace Matches

variable {P Q : LockId → Prop} {a a' b b' c : Arbiter} {l : LockId} {e : Entry}

theorem refl (within : ∀ e ∈ a.queues.entries, P e.claim.id) : Matches P a a :=
  ⟨rfl, rfl, rfl, within, fun _ _ => rfl⟩

theorem trans (first : Matches P a b) (second : Matches P b c) : Matches P a c :=
  ⟨second.config.trans first.config, second.queues.trans first.queues,
    second.size.trans first.size, first.within,
    fun k mine => (second.lock k mine).trans (first.lock k mine)⟩

/-- It is enough to know the locks that have entries. -/
theorem restrict (m : Matches P a b) (inside : ∀ e ∈ a.queues.entries, Q e.claim.id)
    (fewer : ∀ k, Q k → P k) : Matches Q a b :=
  ⟨m.config, m.queues, m.size, inside, fun k mine => m.lock k (fewer k mine)⟩

theorem state (m : Matches P a b) {k : LockId} (mine : P k) :
    (b.lock k).state = (a.lock k).state :=
  (congrArg Lock.state (m.lock k mine) :)

theorem bypassed (m : Matches P a b) {k : LockId} (mine : P k) :
    (b.lock k).bypassed = (a.lock k).bypassed :=
  (congrArg Lock.bypassed (m.lock k mine) :)

/-! ### Single changes -/

/-- Messages do not matter. -/
theorem of_ledger (m : Matches P a b) {r : ResourceId} {others : ResourceId → Queues}
    (left : a'.ledger r others = a.ledger r others)
    (right : b'.ledger r others = b.ledger r others) : Matches P a' b' := by
  have queues (x : Arbiter) : (x.ledger r others).queues r = x.queues := x.ledger_queues r others
  have left' : a'.queues = a.queues := by rw [← queues, left, queues]
  have right' : b'.queues = b.queues := by rw [← queues, right, queues]
  refine ⟨?_, (right'.trans m.queues).trans left'.symm, ?_, left'.symm ▸ m.within,
    fun k mine => ?_⟩
  · exact ((congrArg Ledger.config right).trans m.config).trans (congrArg Ledger.config left).symm
  · exact ((congrArg Ledger.size right).trans m.size).trans (congrArg Ledger.size left).symm
  · exact ((congrFun (congrArg Ledger.lock right) k).trans (m.lock k mine)).trans
      (congrFun (congrArg Ledger.lock left) k).symm

theorem modifyLock (m : Matches P a b) (l : LockId) {f g : Lock → Lock}
    (same : P l → (g (b.lock l)).outline = (f (a.lock l)).outline) :
    Matches P (a.modifyLock l f) (b.modifyLock l g) := by
  refine ⟨m.config, m.queues, ?_, m.within, fun k mine => ?_⟩
  · exact (Arena.size_modify ..).trans (m.size.trans (Arena.size_modify ..).symm)
  · rw [lock_modifyLock, lock_modifyLock, m.size]
    split
    · next here =>
      rw [← here.1] at mine ⊢
      exact same mine
    · exact m.lock k mine

theorem modifyQueues (m : Matches P a b) {f : Queues → Queues}
    (inside : ∀ e ∈ (f a.queues).entries, P e.claim.id) :
    Matches P (a.modifyQueues f) (b.modifyQueues f) :=
  ⟨m.config, congrArg f m.queues, m.size, inside, m.lock⟩

theorem enter (m : Matches P a b) (mine : P l) (mode : Mode) (tell : Bool) :
    Option.Rel (Matches P) (a.enter? l mode tell) (b.enter? l mode tell) := by
  have state := m.state mine
  unfold enter?
  cases edge : (a.lock l).state.allows .granted with
  | false =>
    have none {x : Lock} (refused : x.state.allows .granted = false) :
        x.advance? .granted = none := by
      rw [Lock.advance?, refused]
      rfl
    rw [none edge, none (state.symm ▸ edge)]
    exact .none
  | true =>
    rw [Lock.advance?_of_allows edge, Lock.advance?_of_allows (state.symm ▸ edge)]
    have held : Matches P (a.modifyLock l fun _ => ((a.lock l).enter .granted).hold mode)
        (b.modifyLock l fun _ => ((b.lock l).enter .granted).hold mode) := by
      refine m.modifyLock l fun _ => ?_
      have same := m.lock l mine
      exact (congrArg (fun x : Lock => ((x.enter .granted).hold mode).outline) same :)
    refine .some ?_
    cases tell with
    | false => exact held
    | true => exact held.of_ledger (ledger_notify _ 0 (fun _ => {}) _ _) (ledger_notify ..)

theorem grant (m : Matches P a b) {claim : Claim} (mine : P claim.id) (mode : Mode) (tell : Bool) :
    Matches P (a.grant claim mode tell) (b.grant claim mode tell) := by
  have entered := m.enter mine mode tell
  unfold Arbiter.grant
  cases left : a.enter? claim.id mode tell <;> cases right : b.enter? claim.id mode tell <;>
    rw [left, right] at entered <;> cases entered
  · exact m
  · next both =>
    refine both.modifyQueues fun e inside => ?_
    simp only [Queues.mem_entries, Queues.addGranted, List.mem_append, List.mem_singleton] at inside
    rcases inside with ((holds | rfl) | converts) | waits
    · exact both.within e (by simp [holds])
    · exact mine
    · exact both.within e (by simp [converts])
    · exact both.within e (by simp [waits])

theorem convert (m : Matches P a b) {claim : Claim} (mine : P claim.id) (mode : Mode) (tell : Bool) :
    Option.Rel (Matches P) (a.convert? claim mode tell) (b.convert? claim mode tell) := by
  have entered := m.enter mine mode tell
  unfold Arbiter.convert?
  cases left : a.enter? claim.id mode tell <;> cases right : b.enter? claim.id mode tell <;>
    rw [left, right] at entered <;> cases entered
  · exact .none
  · next both =>
    refine .some (both.modifyQueues fun e inside => ?_)
    simp only [Queues.mem_entries, Queues.setGrantedMode, List.mem_map] at inside
    rcases inside with (⟨x, holds, rfl⟩ | converts) | waits
    · split
      · exact both.within x (by simp [holds])
      · exact both.within x (by simp [holds])
    · exact both.within e (by simp [converts])
    · exact both.within e (by simp [waits])

/-! ### Decisions -/

theorem foldl (m : Matches P a b) {f g : Arbiter → Entry → Arbiter} {es : List Entry}
    (each : ∀ a b, Matches P a b → ∀ e ∈ es, Matches P (f a e) (g b e)) :
    Matches P (es.foldl f a) (es.foldl g b) := by
  induction es generalizing a b with
  | nil => exact m
  | cons e es ih =>
    exact ih (each a b m e List.mem_cons_self) fun a b m x later =>
      each a b m x (List.mem_cons_of_mem e later)

theorem opposed (m : Matches P a b) (claim : Claim) (mode : Mode) :
    b.opposed claim mode = a.opposed claim mode := by
  rw [Arbiter.opposed, Arbiter.opposed, m.queues]

theorem starved (m : Matches P a b) (mine : P e.claim.id) : b.starved e = a.starved e := by
  simp only [Arbiter.starved, m.state mine, m.bypassed mine, m.config]

theorem grantable (m : Matches P a b) (claim : Claim) (mode : Mode) :
    b.grantable claim mode = a.grantable claim mode := by
  have converting : b.queues.converting.any (fun e => e.opposes claim mode && b.starved e) =
      a.queues.converting.any (fun e => e.opposes claim mode && a.starved e) := by
    rw [m.queues, Bool.eq_iff_iff, List.any_eq_true, List.any_eq_true]
    refine exists_congr fun e => and_congr_right fun inside => ?_
    rw [m.starved (m.within e (by simp [inside]))]
  have earlier : (b.queues.earlier claim).any (b.holdsBack · claim mode) =
      (a.queues.earlier claim).any (a.holdsBack · claim mode) := by
    rw [m.queues, Bool.eq_iff_iff, List.any_eq_true, List.any_eq_true]
    refine exists_congr fun e => and_congr_right fun inside => ?_
    have mine := m.within e (by simp [(List.takeWhile_sublist _).subset inside])
    rw [holdsBack, holdsBack, m.state mine, m.starved mine]
  rw [Arbiter.grantable, Arbiter.grantable, m.opposed, converting, earlier]

theorem recordBypass (m : Matches P a b) (claim : Claim) (mode : Mode) :
    Matches P (a.recordBypass claim mode) (b.recordBypass claim mode) := by
  unfold Arbiter.recordBypass
  rw [m.queues]
  refine m.foldl fun a b m e _ => m.modifyLock e.claim.id fun mine => ?_
  exact (congrArg (fun x : Lock => x.passOver.outline) (m.lock _ mine) :)

theorem retryConversion (m : Matches P a b) (mine : P e.claim.id) :
    Matches P (a.retryConversion e) (b.retryConversion e) := by
  unfold Arbiter.retryConversion
  rw [m.state mine, m.opposed]
  split
  · exact m
  · have dropped : Matches P (a.modifyQueues (·.dropConverting e.claim.id))
        (b.modifyQueues (·.dropConverting e.claim.id)) := by
      refine m.modifyQueues fun x inside => m.within x ?_
      simp only [Queues.mem_entries, Queues.dropConverting, List.mem_filter] at inside ⊢
      tauto
    have converted := dropped.convert mine e.mode true
    dsimp only
    cases left : (a.modifyQueues (·.dropConverting e.claim.id)).convert? e.claim e.mode true <;>
      cases right : (b.modifyQueues (·.dropConverting e.claim.id)).convert? e.claim e.mode true <;>
        rw [left, right] at converted <;> cases converted
    · exact dropped
    · assumption

theorem retryWaiter (m : Matches P a b) (mine : P e.claim.id) :
    Matches P (a.retryWaiter e) (b.retryWaiter e) := by
  unfold Arbiter.retryWaiter
  rw [m.state mine, m.grantable]
  split
  · exact m
  · have dropped : Matches P (a.modifyQueues (·.dropWaiting e.claim.id))
        (b.modifyQueues (·.dropWaiting e.claim.id)) := by
      refine m.modifyQueues fun x inside => m.within x ?_
      simp only [Queues.mem_entries, Queues.dropWaiting, List.mem_filter] at inside ⊢
      tauto
    exact (dropped.recordBypass e.claim e.mode).grant mine e.mode true

theorem askFor (m : Matches P a b) (e : Entry) : Matches P (a.askFor e) (b.askFor e) :=
  m.of_ledger (ledger_askFor 0 (fun _ => {}) a e) (ledger_askFor ..)

/-- What is granted when a resource is looked at again is the same for both. -/
theorem reprocess (m : Matches P a b) : Matches P a.reprocess b.reprocess := by
  have converted : Matches P (a.queues.converting.foldl Arbiter.retryConversion a)
      (b.queues.converting.foldl Arbiter.retryConversion b) := by
    rw [m.queues]
    exact m.foldl fun a' b' m' e inside => m'.retryConversion (m.within e (by simp [inside]))
  unfold Arbiter.reprocess
  dsimp only
  generalize a.queues.converting.foldl Arbiter.retryConversion a = a₁ at converted ⊢
  generalize b.queues.converting.foldl Arbiter.retryConversion b = b₁ at converted ⊢
  have served : Matches P (a₁.queues.waiting.foldl Arbiter.retryWaiter a₁)
      (b₁.queues.waiting.foldl Arbiter.retryWaiter b₁) := by
    rw [converted.queues]
    exact converted.foldl fun a' b' m' e inside =>
      m'.retryWaiter (converted.within e (by simp [inside]))
  generalize a₁.queues.waiting.foldl Arbiter.retryWaiter a₁ = a₂ at served ⊢
  generalize b₁.queues.waiting.foldl Arbiter.retryWaiter b₁ = b₂ at served ⊢
  rw [served.queues]
  exact served.foldl fun a' b' m' e _ => m'.askFor e

theorem remove (m : Matches P a b) (l : LockId) :
    Matches (fun k => P k ∧ k ≠ l) (a.modifyQueues (·.remove l)) (b.modifyQueues (·.remove l)) := by
  refine ⟨m.config, congrArg (·.remove l) m.queues, m.size, fun e inside => ?_,
    fun k mine => m.lock k mine.1⟩
  have kept : e ∈ a.queues.entries ∧ e.claim.id ≠ l := by
    simp only [Arbiter.modifyQueues, Queues.mem_entries, Queues.remove, List.mem_filter,
      bne_iff_ne] at inside ⊢
    tauto
  exact ⟨m.within e kept.1, kept.2⟩

/-- What becomes of a lock that does not matter. -/
theorem ignore (m : Matches P a b) (absent : ¬P l) (f : Lock → Lock) :
    Matches P a (b.modifyLock l f) := by
  refine ⟨m.config, m.queues, (Arena.size_modify ..).trans m.size, m.within, fun k mine => ?_⟩
  have other : ¬(l = k ∧ l < b.locks.size) := by
    rintro ⟨rfl, -⟩
    exact absent mine
  rw [lock_modifyLock, if_neg other]
  exact m.lock k mine

end Matches
end Arbiter
end LockManager
