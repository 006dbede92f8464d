import LockManager.Proofs.Arbiter.TakeOut
import LockManager.Proofs.Namespace.Departing
import LockManager.Proofs.Namespace.Resting

set_option autoImplicit false

/-!
Canceling one lock after another. On each resource its locks are taken out of the queues one at a time,
and the resource is looked at again each time; cancels elsewhere do not matter to it.
-/

namespace LockManager

theorem Lock.state_of_outline {x y : Lock} (same : x.outline = y.outline) : x.state = y.state :=
  (congrArg Lock.state same :)

theorem Queues.of_remove_self (q : Queues) (l : LockId) : (q.remove l).of l = {} := by
  have none (es : List Entry) :
      (es.filter (·.claim.id != l)).filter (·.claim.id == l) = [] := by
    rw [List.filter_filter, List.filter_eq_nil_iff]
    intro e _
    simp
  simp only [of, remove, none]

namespace Arbiter

theorem config_notify (a : Arbiter) (l : LockId) (n : Notification) :
    (a.notify l n).config = a.config := by
  unfold notify
  split <;> rfl

theorem config_respects (tell : Bool) : Respects tell fun a a' => a'.config = a.config where
  refl _ := rfl
  trans first second := second.trans first
  queues _ _ := rfl
  pass _ _ := rfl
  enter entered := by
    obtain ⟨-, -, rfl⟩ := enter?_eq entered
    cases tell
    · rfl
    · exact config_notify ..
  ask a claim mode e := by
    unfold Arbiter.ask
    dsimp only
    split
    · rfl
    · exact config_notify ..

end Arbiter

namespace Namespace

open Arbiter (Matches)

variable {ns ns' : Namespace} {P : LockId → Prop} {a b : Arbiter} {k l : LockId} {r : ResourceId}

/-! ### What is decided -/

theorem matches_onto (m : Matches P a (ns.arbiter r)) (config : ns'.config = ns.config)
    (size : ns'.locks.size = ns.locks.size)
    (queues : (ns'.resource r).queues = (ns.resource r).queues)
    (lock : ∀ k, P k → (ns'.lock k).outline = (ns.lock k).outline) :
    Matches P a (ns'.arbiter r) :=
  ⟨config.trans m.config, queues.trans m.queues, size.trans m.size, m.within,
    fun k mine => (lock k mine).trans (m.lock k mine)⟩

theorem matches_alike (m : Matches P a (ns.arbiter r)) (same : Alike ns ns') :
    Matches P a (ns'.arbiter r) :=
  matches_onto m same.config same.size (same.queues r) fun k _ => same.outline k

theorem matches_conclude (m : Matches P a b) (held : r < ns.resources.size)
    (config : b.config = ns.config) : Matches P a ((ns.conclude r b).arbiter r) := by
  refine ⟨?_, (queues_conclude held b).trans m.queues, (ns.size_conclude r b).trans m.size, m.within,
    fun k mine => (ns.outline_conclude r b k).trans (m.lock k mine)⟩
  exact (ns.steady_conclude r b).config.trans (config.symm.trans m.config)

/-! ### One cancel -/

/-- The cancel of `l` has been recorded. -/
def marked (ns : Namespace) (l : LockId) : Namespace :=
  ns.modifyLock l fun _ => (ns.lock l).enter .canceling

/-- What is decided when `l` leaves. -/
def parted (ns : Namespace) (l : LockId) : Arbiter :=
  ((ns.marked l).departing l (ns.lock l).resource).reprocess

theorem lock_marked_of_ne (ns : Namespace) (other : k ≠ l) : (ns.marked l).lock k = ns.lock k :=
  (ns.lock_modifyLock _ l k).trans (if_neg fun both => other both.1.symm)

theorem lock_marked_self (known : l < ns.locks.size) :
    (ns.marked l).lock l = (ns.lock l).enter .canceling :=
  (ns.lock_modifyLock _ l l).trans (if_pos ⟨rfl, known⟩)

theorem Sound.cancelable (sound : ns.Sound) (alive : ns.Alive l)
    (stays : (ns.lock l).state ≠ .canceling) : (ns.lock l).state.allows .canceling = true :=
  (sound.settled alive stays).cancelable

theorem mark?_of_allows (edge : (ns.lock l).state.allows .canceling = true) :
    ns.mark? l = some (ns.marked l) := by
  unfold mark?
  rw [Lock.advance?_of_allows edge]
  rfl

theorem cancelLock_eq (known : l < ns.locks.size) (edge : (ns.lock l).state.allows .canceling = true) :
    ns.cancelLock l =
      ((ns.marked l).leave l (ns.lock l).resource).release (ns.lock l).resource := by
  have bound : ((ns.marked l).lock l).resource = (ns.lock l).resource := by
    rw [lock_marked_self known]
    rfl
  simp only [cancelLock, mark?_of_allows edge, bound]

/-- Whatever remains is nobody's concern. -/
theorem alike_cancelLock (sound : ns.Sound) (alive : ns.Alive l)
    (stays : (ns.lock l).state ≠ .canceling) :
    Alike (((ns.marked l).conclude (ns.lock l).resource (ns.parted l)).retire l)
      (ns.cancelLock l) := by
  rw [cancelLock_eq alive.1 (sound.cancelable alive stays), leave_eq]
  exact alike_release _ _

theorem Sound.cancelLock (sound : ns.Sound) (alive : ns.Alive l)
    (stays : (ns.lock l).state ≠ .canceling) :
    (ns.cancelLock l).Sound ∧ (ns.cancelLock l).locks.size = ns.locks.size ∧
      ∀ k, k ≠ l → Ledger.Stays (ns.lock k).outline ((ns.cancelLock l).lock k).outline := by
  have edge := sound.cancelable alive stays
  have marked := mark?_of_allows edge
  have size : (ns.marked l).locks.size = ns.locks.size := Arena.size_modify ..
  have self := lock_marked_self alive.1
  obtain ⟨b, left⟩ := (sound.mark alive.1 marked).leave (l := l) (r := (ns.lock l).resource)
    (size ▸ alive.1) (by rw [self]; rfl) (by rw [self]; rfl)
  rw [cancelLock_eq alive.1 edge]
  have released := alike_release ((ns.marked l).leave l (ns.lock l).resource) (ns.lock l).resource
  refine ⟨left.sound.alike released, ?_, fun k other => ?_⟩
  · exact released.size.trans ((congrArg Ledger.size left.ledger).trans (left.keeps.size.trans size))
  · rw [← ns.lock_marked_of_ne other, released.outline]
    exact left.stays other

theorem config_parted (ns : Namespace) (l : LockId) : (ns.parted l).config = ns.config :=
  (Arbiter.config_respects true).reprocess _

/-- What is decided on the resource that the lock is bound to. -/
theorem matches_cancelLock (sound : ns.Sound) (alive : ns.Alive l)
    (stays : (ns.lock l).state ≠ .canceling) (bound : (ns.lock l).resource = r)
    (m : Matches P a (ns.arbiter r)) :
    Matches (fun k => P k ∧ k ≠ l) (a.modifyQueues (·.remove l)).reprocess
      ((ns.cancelLock l).arbiter r) := by
  subst bound
  have absent : ¬(P l ∧ l ≠ l) := fun both => both.2 rfl
  have departed : Matches (fun k => P k ∧ k ≠ l) (a.modifyQueues (·.remove l)).reprocess
      (ns.parted l) :=
    (((m.remove l).ignore absent _).ignore absent _).reprocess
  have concluded : Matches (fun k => P k ∧ k ≠ l) (a.modifyQueues (·.remove l)).reprocess
      (((ns.marked l).conclude (ns.lock l).resource (ns.parted l)).arbiter (ns.lock l).resource) :=
    matches_conclude departed (sound.placed l alive.1) (ns.config_parted l)
  refine matches_alike (matches_onto concluded (config_retire _ l) (size_retire _ l)
    (queues_retire _ l _) fun k mine => ?_) (alike_cancelLock sound alive stays)
  rw [lock_retire, if_neg fun both => mine.2 both.1.symm]

/-- Whoever has no entry on the resource that the lock is bound to is left alone. -/
theorem outline_cancelLock_of_ne (sound : ns.Sound) (alive : ns.Alive l)
    (stays : (ns.lock l).state ≠ .canceling) (other : k ≠ l)
    (none : (ns.resource (ns.lock l).resource).queues.of k = {}) :
    ((ns.cancelLock l).lock k).outline = (ns.lock k).outline := by
  have avoids : Arbiter.Avoids k ((ns.marked l).arbiter (ns.lock l).resource) (ns.parted l) :=
    avoids_departing other none
  calc ((ns.cancelLock l).lock k).outline
    _ = ((((ns.marked l).conclude (ns.lock l).resource (ns.parted l)).retire l).lock k).outline :=
      (alike_cancelLock sound alive stays).outline k
    _ = (((ns.marked l).conclude (ns.lock l).resource (ns.parted l)).lock k).outline := by
      rw [lock_retire, if_neg fun both => other both.1.symm]
    _ = ((ns.parted l).lock k).outline := outline_conclude ..
    _ = ((ns.marked l).lock k).outline := congrArg Lock.outline avoids.lock
    _ = (ns.lock k).outline := congrArg Lock.outline (ns.lock_marked_of_ne other)

theorem queues_cancelLock_of_ne (sound : ns.Sound) (alive : ns.Alive l)
    (stays : (ns.lock l).state ≠ .canceling) (other : r ≠ (ns.lock l).resource) :
    ((ns.cancelLock l).resource r).queues = (ns.resource r).queues :=
  calc ((ns.cancelLock l).resource r).queues
    _ = ((((ns.marked l).conclude (ns.lock l).resource (ns.parted l)).retire l).resource r).queues :=
      (alike_cancelLock sound alive stays).queues r
    _ = (((ns.marked l).conclude (ns.lock l).resource (ns.parted l)).resource r).queues :=
      queues_retire ..
    _ = (ns.resource r).queues := queues_conclude_of_ne other _

/-- The lock itself is gone. -/
theorem canceled_cancelLock (sound : ns.Sound) (alive : ns.Alive l)
    (stays : (ns.lock l).state ≠ .canceling) : ((ns.cancelLock l).lock l).state = .canceled := by
  have gone : ((ns.marked l).departing l (ns.lock l).resource).queues.of l = {} :=
    Queues.of_remove_self _ l
  have self : (((ns.marked l).departing l (ns.lock l).resource).lock l).state = .canceled := by
    have known : l < (ns.marked l).locks.size := (Arena.size_modify ..).symm ▸ alive.1
    unfold departing
    rw [Arbiter.lock_modifyLock, if_pos ⟨rfl, known⟩]
    show ((((ns.marked l).lock l).advance? .canceled).getD ((ns.marked l).lock l)).state = _
    rw [ns.lock_marked_self alive.1]
    rfl
  calc ((ns.cancelLock l).lock l).state
    _ = ((((ns.marked l).conclude (ns.lock l).resource (ns.parted l)).retire l).lock l).state :=
      Lock.state_of_outline ((alike_cancelLock sound alive stays).outline l)
    _ = (((ns.marked l).conclude (ns.lock l).resource (ns.parted l)).lock l).state :=
      state_retire ..
    _ = ((ns.parted l).lock l).state :=
      Lock.state_of_outline ((ns.marked l).outline_conclude (ns.lock l).resource (ns.parted l) l)
    _ = (((ns.marked l).departing l (ns.lock l).resource).lock l).state :=
      congrArg Lock.state (Arbiter.Avoids.reprocess gone).lock
    _ = .canceled := self

/-- What is decided on another resource does not matter. -/
theorem matches_cancelLock_of_ne (sound : ns.Sound) (alive : ns.Alive l)
    (stays : (ns.lock l).state ≠ .canceling) (other : (ns.lock l).resource ≠ r)
    (bound : ∀ k, P k → k < ns.locks.size ∧ (ns.lock k).resource = r)
    (m : Matches P a (ns.arbiter r)) : Matches P a ((ns.cancelLock l).arbiter r) := by
  obtain ⟨-, size, -⟩ := sound.cancelLock alive stays
  refine matches_onto m ?_ size (queues_cancelLock_of_ne sound alive stays (Ne.symm other))
    fun k mine => ?_
  · exact (alike_cancelLock sound alive stays).config.trans
      ((config_retire _ l).trans (steady_conclude _ _ _).config)
  · obtain ⟨known, here⟩ := bound k mine
    refine outline_cancelLock_of_ne sound alive stays (fun same => other (same ▸ here)) ?_
    exact sound.ledger.coherent.elsewhere k known _ (fun same => other (same.trans here))

/-! ### Many cancels -/

/-- Locks that can be canceled one after another. -/
structure Ready (ns : Namespace) (ls : List LockId) : Prop where
  sound : ns.Sound
  once : ls.Nodup
  alive : ∀ l ∈ ls, ns.Alive l
  stays : ∀ l ∈ ls, (ns.lock l).state ≠ .canceling

namespace Ready

variable {ls : List LockId}

theorem edge (ready : ns.Ready (l :: ls)) : (ns.lock l).state.allows .canceling = true :=
  ready.sound.cancelable (ready.alive l List.mem_cons_self) (ready.stays l List.mem_cons_self)

theorem next (ready : ns.Ready (l :: ls)) : (ns.cancelLock l).Ready ls ∧
    (ns.cancelLock l).locks.size = ns.locks.size ∧
      ∀ k, k ≠ l → Ledger.Stays (ns.lock k).outline ((ns.cancelLock l).lock k).outline := by
  obtain ⟨sound, size, others⟩ := ready.sound.cancelLock (ready.alive l List.mem_cons_self)
    (ready.stays l List.mem_cons_self)
  obtain ⟨absent, once⟩ := List.nodup_cons.mp ready.once
  have apart (k : LockId) (later : k ∈ ls) : k ≠ l := fun same => absent (same ▸ later)
  refine ⟨⟨sound, once, fun k later => ?_, fun k later canceling => ?_⟩, size, others⟩
  · obtain ⟨known, unretired⟩ := ready.alive k (List.mem_cons_of_mem l later)
    exact ⟨size.symm ▸ known, (others k (apart k later)).retired.trans unretired⟩
  · rcases (others k (apart k later)).state with same | ⟨-, still, -⟩
    · exact ready.stays k (List.mem_cons_of_mem l later) (same.symm.trans canceling)
    · rw [show ((ns.cancelLock l).lock k).outline.state = .canceling from canceling] at still
      cases still

theorem append {ms : List LockId} (ready : ns.Ready (ls ++ ms)) : ns.Ready ls :=
  ⟨ready.sound, ready.once.of_append_left,
    fun l inside => ready.alive l (List.mem_append_left ms inside),
    fun l inside => ready.stays l (List.mem_append_left ms inside)⟩

/-- Whoever is on its way out remains so. -/
theorem leaving (ready : ns.Ready ls) (leaving : (ns.lock k).state.leaving = true) (other : k ∉ ls) :
    ((ls.foldl cancelLock ns).lock k).state.leaving = true := by
  induction ls generalizing ns with
  | nil => exact leaving
  | cons l ls ih =>
    obtain ⟨ready', -, others⟩ := ready.next
    refine ih ready' ?_ (List.not_mem_of_not_mem_cons other)
    exact (others k (List.ne_of_not_mem_cons other)).leaving.trans leaving

theorem gone (ready : ns.Ready ls) (inside : k ∈ ls) :
    ((ls.foldl cancelLock ns).lock k).state.leaving = true := by
  induction ls generalizing ns with
  | nil => cases inside
  | cons l ls ih =>
    rcases List.mem_cons.mp inside with rfl | later
    · refine ready.next.1.leaving ?_ (List.nodup_cons.mp ready.once).1
      rw [canceled_cancelLock ready.sound (ready.alive k List.mem_cons_self)
        (ready.stays k List.mem_cons_self)]
      rfl
    · exact ih ready.next.1 later

/-- On one resource it is as if its own locks alone had been taken out of its queues. -/
theorem sweep (ready : ns.Ready ls) (m : Matches P a (ns.arbiter r))
    (bound : ∀ k, P k → k < ns.locks.size ∧ (ns.lock k).resource = r) {own : List LockId}
    (here : ls.filter (fun l => (ns.lock l).resource = r) = own) :
    Matches (fun k => P k ∧ k ∉ own) (a.takeOut own) ((ls.foldl cancelLock ns).arbiter r) := by
  induction ls generalizing ns P a own with
  | nil =>
    subst here
    exact m.restrict (fun e inside => ⟨m.within e inside, List.not_mem_nil⟩) fun k => And.left
  | cons l ls ih =>
    obtain ⟨ready', size, others⟩ := ready.next
    have alive := ready.alive l List.mem_cons_self
    have stays := ready.stays l List.mem_cons_self
    have absent : l ∉ ls := (List.nodup_cons.mp ready.once).1
    have resource (k : LockId) (other : k ≠ l) :
        ((ns.cancelLock l).lock k).resource = (ns.lock k).resource := (others k other).resource
    have rest : ls.filter (fun k => ((ns.cancelLock l).lock k).resource = r) =
        ls.filter (fun k => (ns.lock k).resource = r) := by
      refine List.filter_congr fun k later => ?_
      rw [resource k fun same => absent (same ▸ later)]
    rw [List.foldl_cons]
    by_cases place : (ns.lock l).resource = r
    · rw [List.filter_cons, if_pos (by simpa using place)] at here
      subst here
      have final := ih ready' (matches_cancelLock ready.sound alive stays place m)
        (fun k inside => ⟨size.symm ▸ (bound k inside.1).1,
          (resource k inside.2).trans (bound k inside.1).2⟩) rest
      refine final.restrict (fun e inside => ?_) fun k outside => ?_
      · obtain ⟨⟨inside, other⟩, later⟩ := final.within e inside
        exact ⟨inside, List.not_mem_cons_of_ne_of_not_mem other later⟩
      · exact ⟨⟨outside.1, List.ne_of_not_mem_cons outside.2⟩,
          List.not_mem_of_not_mem_cons outside.2⟩
    · rw [List.filter_cons, if_neg (by simpa using place), ← rest] at here
      refine ih ready' (matches_cancelLock_of_ne ready.sound alive stays place bound m)
        (fun k inside => ?_) here
      have other : k ≠ l := fun same => place (same ▸ (bound k inside).2)
      exact ⟨size.symm ▸ (bound k inside).1, (resource k other).trans (bound k inside).2⟩

/-- As long as nobody can be granted anything, those of its own that are left are as they were. -/
theorem undisturbed {before after own : List LockId} (ready : ns.Ready (before ++ after))
    (m : Matches (fun k => k < ns.locks.size ∧ (ns.lock k).resource = r) a (ns.arbiter r))
    (here : (before ++ after).filter (fun l => (ns.lock l).resource = r) = own)
    (still : ∀ n < own.length, 0 < n → (a.modifyQueues (·.without (own.take n))).Still)
    (inside : k ∈ own) (left : k ∉ before) :
    ((before.foldl cancelLock ns).lock k).outline = (a.lock k).outline := by
  subst here
  obtain ⟨known, -⟩ := ready.alive k (List.mem_of_mem_filter inside)
  have bound : (ns.lock k).resource = r := by simpa using (List.mem_filter.mp inside).2
  have absent : k ∉ before.filter fun l => (ns.lock l).resource = r :=
    fun out => left (List.mem_of_mem_filter out)
  rw [List.filter_append] at inside still
  have short : (before.filter fun l => (ns.lock l).resource = r).length <
      ((before.filter fun l => (ns.lock l).resource = r) ++
        after.filter fun l => (ns.lock l).resource = r).length := by
    rw [List.length_append]
    have later := (List.mem_append.mp inside).resolve_left absent
    exact Nat.lt_add_of_pos_right (List.length_pos_of_mem later)
  have kept := Arbiter.matches_takeOut still short
  rw [List.take_left' rfl] at kept
  have swept := ready.append.sweep m (fun _ mine => mine) rfl
  exact (swept.lock k ⟨⟨known, bound⟩, absent⟩).trans (kept.lock k trivial)

/-- Each of them is in its old state until it is canceled. -/
theorem old_or_leaving {before after own : List LockId} (ready : ns.Ready (before ++ after))
    (m : Matches (fun k => k < ns.locks.size ∧ (ns.lock k).resource = r) a (ns.arbiter r))
    (here : (before ++ after).filter (fun l => (ns.lock l).resource = r) = own)
    (still : ∀ n < own.length, 0 < n → (a.modifyQueues (·.without (own.take n))).Still)
    (inside : k ∈ own) : ((before.foldl cancelLock ns).lock k).state = (a.lock k).state ∨
      ((before.foldl cancelLock ns).lock k).state.leaving = true := by
  by_cases out : k ∈ before
  · exact .inr (ready.append.gone out)
  · exact .inl (Lock.state_of_outline (ready.undisturbed m here still inside out))

end Ready
end Namespace
end LockManager
