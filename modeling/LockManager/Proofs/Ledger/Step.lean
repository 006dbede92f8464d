import LockManager.Proofs.Ledger
import Mathlib.Logic.Relation

set_option autoImplicit false

/-!
What can happen to a ledger, one lock at a time. Looking at a resource again only passes locks over,
serves waiters and completes conversions; the other steps begin with a request. All of them keep a
ledger coherent.
-/

namespace LockManager
namespace Ledger

/-- What comes of looking at the locks of `r` again. -/
inductive Grant (r : ResourceId) (b : Ledger) : Ledger → Prop where
  | pass {l : LockId} (known : l < b.size) (bound : (b.lock l).resource = r) : Grant r b (b.pass l)
  | serve {l : LockId} (known : l < b.size) (bound : (b.lock l).resource = r)
      (waits : (b.lock l).state = .waiting)
      (free : b.opposed l (b.lock l).requestedMode = false) : Grant r b (b.serve l)
  | complete {l : LockId} (known : l < b.size) (bound : (b.lock l).resource = r)
      (converts : (b.lock l).state = .converting)
      (free : b.opposed l (b.lock l).requestedMode = false) : Grant r b (b.complete l)

abbrev Grants (r : ResourceId) : Ledger → Ledger → Prop := Relation.ReflTransGen (Grant r)

inductive Step (b : Ledger) : Ledger → Prop where
  | grant {r : ResourceId} {b' : Ledger} (done : Grant r b b') : Step b b'
  | register {x : Lock} (fresh : x.claim.id = b.size) (new : x.state = .new)
      (nothing : x.grantedMode = none) (valid : x.claim.policy.fault? = none) : Step b (b.extend x)
  | rebind {l : LockId} (known : l < b.size) (new : (b.lock l).state = .new) (r : ResourceId)
      (k : Key) : Step b (b.set l { b.lock l with resource := r, key := k })
  | enqueue {l : LockId} (known : l < b.size) (new : (b.lock l).state = .new) :
      Step b (b.set l ((b.lock l).enter .enqueued))
  | accept {l : LockId} (known : l < b.size) (enqueued : (b.lock l).state = .enqueued)
      (free : b.opposed l (b.lock l).requestedMode = false) : Step b (b.accept l)
  | wait {l : LockId} (known : l < b.size) (enqueued : (b.lock l).state = .enqueued) :
      Step b (b.wait l)
  | pend {l : LockId} {mode : Mode} (known : l < b.size) (granted : (b.lock l).state = .granted)
      (blocked : b.opposed l mode = true) : Step b (b.pend l mode)
  | switch {l : LockId} {mode : Mode} (known : l < b.size) (granted : (b.lock l).state = .granted)
      (free : b.opposed l mode = false) : Step b (b.switch l mode)
  | mark {l : LockId} (known : l < b.size) (stays : (b.lock l).state.leaving = false) :
      Step b (b.set l ((b.lock l).enter .canceling))
  | leave {l : LockId} (known : l < b.size) (canceling : (b.lock l).state = .canceling) :
      Step b (b.leave l)
  | retire {l : LockId} (known : l < b.size) :
      Step b (b.set l { b.lock l with retired := true })

abbrev Steps : Ledger → Ledger → Prop := Relation.ReflTransGen Step

theorem Grants.steps {r : ResourceId} {b b' : Ledger} (done : Grants r b b') : Steps b b' :=
  Relation.ReflTransGen.mono (fun _ _ => Step.grant) _ _ done

/-- Locks of `r` have been passed over, and nothing else has happened. -/
inductive Passes (r : ResourceId) (b : Ledger) : Ledger → Prop where
  | none : Passes r b b
  | pass {b' : Ledger} {l : LockId} (before : Passes r b b') (known : l < b'.size)
      (bound : (b'.lock l).resource = r) : Passes r b (b'.pass l)

namespace Passes

variable {r : ResourceId} {b b' : Ledger}

theorem grants (passed : Passes r b b') : Grants r b b' := by
  induction passed with
  | none => exact .refl
  | pass _ known bound ih => exact ih.tail (.pass known bound)

theorem config (passed : Passes r b b') : b'.config = b.config := by
  induction passed with
  | none => rfl
  | pass _ _ _ ih => exact ih

theorem size (passed : Passes r b b') : b'.size = b.size := by
  induction passed with
  | none => rfl
  | pass _ _ _ ih => exact ih

theorem queues (passed : Passes r b b') : b'.queues = b.queues := by
  induction passed with
  | none => rfl
  | pass _ _ _ ih => exact ih

theorem lock (passed : Passes r b b') (l : LockId) :
    ∃ n, b'.lock l = { b.lock l with bypassed := n } := by
  induction passed with
  | none => exact ⟨_, rfl⟩
  | @pass b' k _ _ _ ih =>
    obtain ⟨n, before⟩ := ih
    by_cases same : l = k
    · rw [same] at before ⊢
      rw [Ledger.pass, lock_set_self, before]
      exact ⟨_, rfl⟩
    · rw [Ledger.pass, lock_set_of_ne _ _ same]
      exact ⟨n, before⟩

theorem opposed (passed : Passes r b b') (l : LockId) (mode : Mode) :
    b'.opposed l mode = b.opposed l mode := by
  obtain ⟨n, same⟩ := passed.lock l
  rw [Ledger.opposed, Ledger.opposed, home, home, passed.queues, same]

end Passes

/-! ### Who stays -/

/-- The lock is bound to what it was and has not begun to leave. -/
structure Stays (x x' : Lock) : Prop where
  claim : x'.claim = x.claim
  resource : x'.resource = x.resource
  key : x'.key = x.key
  retired : x'.retired = x.retired
  state : x'.state = x.state ∨
    x.state.leaving = false ∧ x'.state.leaving = false ∧ x'.state ≠ .enqueued

namespace Stays

theorem refl (x : Lock) : Stays x x := ⟨rfl, rfl, rfl, rfl, .inl rfl⟩

theorem trans {x x' x'' : Lock} (first : Stays x x') (second : Stays x' x'') : Stays x x'' := by
  refine ⟨second.claim.trans first.claim, second.resource.trans first.resource,
    second.key.trans first.key, second.retired.trans first.retired, ?_⟩
  rcases second.state with same | ⟨here, now, apart⟩
  · rw [same]
    exact first.state
  · rcases first.state with same | ⟨before, -, -⟩
    · exact .inr ⟨same ▸ here, now, apart⟩
    · exact .inr ⟨before, now, apart⟩

theorem leaving {x x' : Lock} (stays : Stays x x') : x'.state.leaving = x.state.leaving := by
  rcases stays.state with same | ⟨before, after, -⟩
  · rw [same]
  · rw [before, after]

theorem state_iff {x x' : Lock} (stays : Stays x x') {s : LockState} (gone : s.leaving = true) :
    x'.state = s ↔ x.state = s := by
  rcases stays.state with same | ⟨before, after, -⟩
  · rw [same]
  · constructor
    · intro now
      rw [now, gone] at after
      cases after
    · intro then'
      rw [then', gone] at before
      cases before

theorem ne_enqueued {x x' : Lock} (stays : Stays x x') (before : x.state ≠ .enqueued) :
    x'.state ≠ .enqueued := by
  rcases stays.state with same | ⟨-, -, after⟩
  · rw [same]
    exact before
  · exact after

end Stays

/-- Every lock stays and no lock has come. -/
structure Keeps (b b' : Ledger) : Prop where
  config : b'.config = b.config
  size : b'.size = b.size
  lock : ∀ l, Stays (b.lock l) (b'.lock l)

namespace Keeps

theorem refl (b : Ledger) : Keeps b b := ⟨rfl, rfl, fun l => .refl (b.lock l)⟩

theorem trans {b b' b'' : Ledger} (first : Keeps b b') (second : Keeps b' b'') : Keeps b b'' :=
  ⟨second.config.trans first.config, second.size.trans first.size,
    fun l => (first.lock l).trans (second.lock l)⟩

theorem seat (b : Ledger) {l : LockId} {x : Lock} (q : Queues) (stays : Stays (b.lock l) x) :
    Keeps b (b.seat l x q) := by
  refine ⟨rfl, rfl, fun k => ?_⟩
  by_cases same : k = l
  · rw [same, lock_seat_self]
    exact stays
  · rw [lock_seat_of_ne _ _ _ same]
    exact .refl _

theorem grant {r : ResourceId} {b b' : Ledger} (done : Grant r b b') : Keeps b b' := by
  cases done with
  | @pass l _ _ =>
    rw [pass, set_eq_seat]
    exact seat b _ ⟨rfl, rfl, rfl, rfl, .inl rfl⟩
  | serve _ _ waits _ =>
    exact seat b _ ⟨rfl, rfl, rfl, rfl, .inr ⟨by rw [waits]; rfl, rfl, nofun⟩⟩
  | complete _ _ converts _ =>
    exact seat b _ ⟨rfl, rfl, rfl, rfl, .inr ⟨by rw [converts]; rfl, rfl, nofun⟩⟩

theorem grants {r : ResourceId} {b b' : Ledger} (done : Grants r b b') : Keeps b b' := by
  induction done with
  | refl => exact refl b
  | tail _ last ih => exact ih.trans (grant last)

/-- Only one lock has left. -/
theorem stays_of_leave {b b' : Ledger} {l k : LockId} (keeps : Keeps (b.leave l) b')
    (other : k ≠ l) : Stays (b.lock k) (b'.lock k) := by
  have same := keeps.lock k
  rw [Ledger.leave, lock_seat_of_ne _ _ _ other] at same
  exact same

/-- A lock that has left still has its claim and its place. -/
theorem left_of_leave {b b' : Ledger} {l : LockId} (keeps : Keeps (b.leave l) b') :
    (b'.lock l).claim = (b.lock l).claim ∧ (b'.lock l).resource = (b.lock l).resource ∧
      (b'.lock l).state = .canceled := by
  have same := keeps.lock l
  rw [Ledger.leave, lock_seat_self] at same
  exact ⟨same.claim, same.resource, (same.state_iff rfl).mpr rfl⟩

end Keeps

namespace Coherent

variable {b : Ledger}

/-- Only one lock and its entries have changed, and they fit each other. -/
theorem change (c : b.Coherent) {b' : Ledger} {l : LockId} (grown : b.size ≤ b'.size)
    (old : ∀ k, k ≠ l → k < b'.size → k < b.size) (known : l < b'.size)
    (locks : ∀ k, k ≠ l → b'.lock k = b.lock k)
    (entries : ∀ r, (b.queues r).SameBut l (b'.queues r))
    (named : (b'.lock l).claim.id = l) (valid : (b'.lock l).claim.policy.fault? = none)
    (own : (b'.lock l).Seated ((b'.home l).of l))
    (away : ∀ r, r ≠ (b'.lock l).resource → (b'.queues r).of l = {})
    (ordered : ∀ r, (b'.queues r).Ordered) (apart : ∀ r, (b'.queues r).Apart) : b'.Coherent := by
  refine ⟨?_, ?_, ?_, ?_, ?_, ordered, apart⟩
  · intro k below
    by_cases same : k = l
    · rw [same]
      exact named
    · rw [locks k same]
      exact c.named k (old k same below)
  · intro k below
    by_cases same : k = l
    · rw [same]
      exact valid
    · rw [locks k same]
      exact c.valid k (old k same below)
  · intro r e inside
    by_cases same : e.claim.id = l
    · rw [same]
      exact known
    · have mine := Queues.mem_entries_of.mpr ⟨inside, rfl⟩
      rw [entries r _ same] at mine
      exact Nat.lt_of_lt_of_le (c.known r e (Queues.mem_entries_of.mp mine).1) grown
  · intro k below
    by_cases same : k = l
    · rw [same]
      exact own
    · rw [home, locks k same, entries _ k same]
      exact c.seated k (old k same below)
  · intro k below r apart
    by_cases same : k = l
    · rw [same] at apart ⊢
      exact away r apart
    · rw [locks k same] at apart
      rw [entries r k same]
      exact c.elsewhere k (old k same below) r apart

theorem seat (c : b.Coherent) {l : LockId} {x : Lock} {q : Queues} (known : l < b.size)
    (claim : x.claim = (b.lock l).claim) (resource : x.resource = (b.lock l).resource)
    (others : (b.home l).SameBut l q) (own : x.Seated (q.of l)) (ordered : q.Ordered)
    (apart : q.Apart) : (b.seat l x q).Coherent := by
  have self := b.lock_seat_self l x q
  have here := b.queues_seat_self l x q
  refine c.change (l := l) (Nat.le_refl _) (fun _ _ below => below) known
    (fun _ other => b.lock_seat_of_ne x q other) ?_ ?_ ?_ ?_ ?_ ?_ ?_
  · intro r
    by_cases same : r = (b.lock l).resource
    · rw [same, here]
      exact others
    · rw [b.queues_seat_of_ne x q same]
      exact fun _ _ => rfl
  · rw [self, claim]
    exact c.named l known
  · rw [self, claim]
    exact c.valid l known
  · rw [home, self, resource, here]
    exact own
  · intro r other
    rw [self, resource] at other
    rw [b.queues_seat_of_ne x q other]
    exact c.elsewhere l known r other
  · intro r
    by_cases same : r = (b.lock l).resource
    · rw [same, here]
      exact ordered
    · rw [b.queues_seat_of_ne x q same]
      exact c.ordered r
  · intro r
    by_cases same : r = (b.lock l).resource
    · rw [same, here]
      exact apart
    · rw [b.queues_seat_of_ne x q same]
      exact c.apart r

/-- A lock changes and its entries still fit. -/
theorem set (c : b.Coherent) {l : LockId} {x : Lock} (known : l < b.size)
    (claim : x.claim = (b.lock l).claim) (resource : x.resource = (b.lock l).resource)
    (own : x.Seated ((b.home l).of l)) : (b.set l x).Coherent := by
  rw [set_eq_seat]
  exact c.seat known claim resource (fun _ _ => rfl) own (c.ordered _) (c.apart _)

/-- A lock that has no entries may be bound to any resource. -/
theorem rebind (c : b.Coherent) {l : LockId} (known : l < b.size)
    (new : (b.lock l).state = .new) (r : ResourceId) (k : Key) :
    (b.set l { b.lock l with resource := r, key := k }).Coherent := by
  have seated := c.seated l known
  have none : ∀ r', (b.queues r').of l = {} := by
    rw [Lock.Seated, new] at seated
    exact c.home_of_empty known seated.of_new.2
  have self := b.lock_set_self l { b.lock l with resource := r, key := k }
  refine c.change (l := l) (Nat.le_refl _) (fun _ _ below => below) known
    (fun _ other => b.lock_set_of_ne _ other) (fun _ _ _ => rfl) ?_ ?_ ?_
    (fun r' _ => none r') c.ordered c.apart
  · rw [self]
    exact c.named l known
  · rw [self]
    exact c.valid l known
  · rw [home, none] at seated
    rw [home, self]
    exact (none r).symm ▸ seated

theorem extend (c : b.Coherent) {x : Lock} (fresh : x.claim.id = b.size) (new : x.state = .new)
    (nothing : x.grantedMode = none) (valid : x.claim.policy.fault? = none) :
    (b.extend x).Coherent := by
  have absent : ∀ r, (b.queues r).of b.size = {} := by
    intro r
    have others : ∀ e ∈ (b.queues r).entries, ¬(e.claim.id == b.size) = true := by
      intro e inside
      simpa using Nat.ne_of_lt (c.known r e inside)
    simp only [Queues.mem_entries] at others
    simp only [Queues.of, Queues.mk.injEq, List.filter_eq_nil_iff]
    exact ⟨fun e inside => others e (.inl (.inl inside)),
      fun e inside => others e (.inl (.inr inside)), fun e inside => others e (.inr inside)⟩
  have self : (b.extend x).lock b.size = x := Function.update_self ..
  refine c.change (l := b.size) (Nat.le_succ _) ?_ (Nat.lt_succ_self _)
    (fun k other => Function.update_of_ne other ..) (fun _ _ _ => rfl) ?_ ?_ ?_
    (fun r _ => absent r) c.ordered c.apart
  · intro k other below
    exact Nat.lt_of_le_of_ne (Nat.le_of_lt_succ below) other
  · rw [self, fresh]
  · rw [self]
    exact valid
  · have empty : ((b.extend x).queues x.resource).of b.size = {} := absent _
    rw [home, self, empty, Lock.Seated, new, nothing]
    exact .new

/-! ### Every step keeps a ledger coherent -/

theorem pass (c : b.Coherent) {l : LockId} (known : l < b.size) : (b.pass l).Coherent :=
  c.set known rfl rfl (c.seated l known)

theorem serve (c : b.Coherent) {l : LockId} (known : l < b.size)
    (waits : (b.lock l).state = .waiting)
    (free : b.opposed l (b.lock l).requestedMode = false) : (b.serve l).Coherent := by
  have named := c.named l known
  have own := c.seated l known
  rw [Lock.Seated, waits] at own
  refine c.seat known rfl rfl
    ((Queues.sameBut_dropWaiting _ l).trans (Queues.sameBut_addGranted _ named)) ?_
    (Queues.ordered_of_sublist (c.ordered _) List.filter_sublist)
    (Queues.apart_addGranted (c.apart _) (opposed_eq_false.mp free))
  rw [Queues.of_addGranted, if_pos named, Queues.of_dropWaiting, own.of_state_waiting.2]
  simp only [Queues.dropWaiting, List.filter_cons, named, bne_self_eq_false, List.filter_nil]
  exact .granted

theorem complete (c : b.Coherent) {l : LockId} (known : l < b.size)
    (converts : (b.lock l).state = .converting)
    (free : b.opposed l (b.lock l).requestedMode = false) : (b.complete l).Coherent := by
  have named := c.named l known
  have own := c.seated l known
  rw [Lock.Seated, converts] at own
  obtain ⟨old, -, -, entries⟩ := own.of_state_converting
  refine c.seat known rfl rfl
    ((Queues.sameBut_dropConverting _ l).trans (Queues.sameBut_setGrantedMode _ l _)) ?_
    (c.ordered _) (c.apart_setGrantedMode known free)
  rw [Queues.of_setGrantedMode, Queues.of_dropConverting, entries]
  simp only [Queues.dropConverting, Queues.setGrantedMode, List.filter_cons, List.map_cons, named,
    bne_self_eq_false, List.filter_nil, List.map_nil, if_true]
  exact .granted

theorem enqueue (c : b.Coherent) {l : LockId} (known : l < b.size)
    (new : (b.lock l).state = .new) : (b.set l ((b.lock l).enter .enqueued)).Coherent := by
  have own := c.seated l known
  rw [Lock.Seated, new] at own
  refine c.set known rfl rfl ?_
  obtain ⟨nothing, entries⟩ := own.of_new
  rw [Lock.Seated, entries, show ((b.lock l).enter .enqueued).grantedMode = none from nothing]
  exact .enqueued

theorem accept (c : b.Coherent) {l : LockId} (known : l < b.size)
    (enqueued : (b.lock l).state = .enqueued)
    (free : b.opposed l (b.lock l).requestedMode = false) : (b.accept l).Coherent := by
  have named := c.named l known
  have own := c.seated l known
  rw [Lock.Seated, enqueued] at own
  refine c.seat known rfl rfl (Queues.sameBut_addGranted _ named) ?_ (c.ordered _)
    (Queues.apart_addGranted (c.apart _) (opposed_eq_false.mp free))
  rw [Queues.of_addGranted, if_pos named, own.of_enqueued.2]
  exact .granted

theorem wait (c : b.Coherent) {l : LockId} (known : l < b.size)
    (enqueued : (b.lock l).state = .enqueued) : (b.wait l).Coherent := by
  have named := c.named l known
  have own := c.seated l known
  rw [Lock.Seated, enqueued] at own
  obtain ⟨nothing, entries⟩ := own.of_enqueued
  have absent : ((b.home l).of (b.lock l).claim.id).waiting = [] := by
    rw [named, entries]
  have mine := Queues.of_addWaiting_self (b.home l)
    (e := ⟨(b.lock l).claim, (b.lock l).requestedMode⟩) absent
  rw [named, entries] at mine
  refine c.seat known rfl rfl (Queues.sameBut_addWaiting _ named) ?_
    (Queues.ordered_addWaiting (c.ordered _) absent)
    (Queues.apart_of_granted_subset (c.apart _) fun _ inside => inside)
  rw [mine, Lock.Seated, show ((b.lock l).enter .waiting).grantedMode = none from nothing]
  exact .waiting

/-- A conversion that has to wait is to a mode that is not weaker than the one held. -/
theorem raises_of_opposed (c : b.Coherent) {l : LockId} {held mode : Mode}
    (holds : (⟨(b.lock l).claim, held⟩ : Entry) ∈ (b.home l).granted)
    (blocked : b.opposed l mode = true) : held.raises mode = true := by
  obtain ⟨g, inside, against⟩ := List.any_eq_true.mp blocked
  obtain ⟨other, refuses, meet⟩ := Entry.opposes_iff.mp against
  have beside := c.apart _ g inside _ holds
  have goes : g.mode.compatible held = true := by
    by_contra clash
    have stands : g.opposes (b.lock l).claim held = true :=
      Entry.opposes_iff.mpr ⟨other, by simpa using clash, meet⟩
    simp [stands] at beside
  exact Mode.raises_of_opposed (x := g.mode) (by rw [Mode.compatible_comm, goes])
    (by rw [Mode.compatible_comm, refuses])

theorem pend (c : b.Coherent) {l : LockId} {mode : Mode} (known : l < b.size)
    (granted : (b.lock l).state = .granted) (blocked : b.opposed l mode = true) :
    (b.pend l mode).Coherent := by
  have named := c.named l known
  have own := c.seated l known
  rw [Lock.Seated, granted] at own
  obtain ⟨holds, entries⟩ := own.of_state_granted
  have inside : (⟨(b.lock l).claim, (b.lock l).requestedMode⟩ : Entry) ∈ (b.home l).granted := by
    refine (Queues.mem_granted_of (l := l).mp ?_).1
    rw [entries]
    exact List.mem_singleton_self _
  have up := c.raises_of_opposed inside blocked
  refine c.seat known rfl rfl (Queues.sameBut_addConverting _ named) ?_ (c.ordered _)
    (Queues.apart_of_granted_subset (c.apart _) fun _ inside => inside)
  rw [Queues.of_addConverting, if_pos named, entries, Lock.Seated,
    show ((b.lock l).ask mode).grantedMode = some (b.lock l).requestedMode from holds]
  exact .converting up

theorem switch (c : b.Coherent) {l : LockId} {mode : Mode} (known : l < b.size)
    (granted : (b.lock l).state = .granted) (free : b.opposed l mode = false) :
    (b.switch l mode).Coherent := by
  have named := c.named l known
  have own := c.seated l known
  rw [Lock.Seated, granted] at own
  refine c.seat known rfl rfl (Queues.sameBut_setGrantedMode _ l _) ?_ (c.ordered _)
    (c.apart_setGrantedMode known free)
  rw [Queues.of_setGrantedMode, own.of_state_granted.2]
  simp only [Queues.setGrantedMode, List.map_cons, named, List.map_nil, if_true]
  exact .granted

theorem mark (c : b.Coherent) {l : LockId} (known : l < b.size) :
    (b.set l ((b.lock l).enter .canceling)).Coherent :=
  c.set known rfl rfl (.canceling (c.seated l known))

theorem leave (c : b.Coherent) {l : LockId} (known : l < b.size) : (b.leave l).Coherent := by
  have gone : ((b.home l).remove l).of l = {} := by
    simp [Queues.of, Queues.remove, List.filter_filter]
  refine c.seat known rfl rfl (Queues.sameBut_remove _ l) ?_
    (Queues.ordered_of_sublist (c.ordered (b.lock l).resource) List.filter_sublist)
    (Queues.apart_of_granted_subset (c.apart (b.lock l).resource)
      fun _ inside => List.mem_of_mem_filter inside)
  rw [gone]
  exact .canceled

theorem grant (c : b.Coherent) {r : ResourceId} {b' : Ledger} (done : Grant r b b') :
    b'.Coherent := by
  cases done with
  | pass known _ => exact c.pass known
  | serve known _ waits free => exact c.serve known waits free
  | complete known _ converts free => exact c.complete known converts free

theorem step (c : b.Coherent) {b' : Ledger} (done : Step b b') : b'.Coherent := by
  cases done with
  | grant done => exact c.grant done
  | register fresh new nothing valid => exact c.extend fresh new nothing valid
  | rebind known new r k => exact c.rebind known new r k
  | enqueue known new => exact c.enqueue known new
  | accept known enqueued free => exact c.accept known enqueued free
  | wait known enqueued => exact c.wait known enqueued
  | pend known granted blocked => exact c.pend known granted blocked
  | switch known granted free => exact c.switch known granted free
  | mark known _ => exact c.mark known
  | leave known _ => exact c.leave known
  | retire known => exact c.set known rfl rfl (c.seated _ known)

theorem steps (c : b.Coherent) {b' : Ledger} (run : Steps b b') : b'.Coherent := by
  induction run with
  | refl => exact c
  | tail _ done ih => exact ih.step done

end Coherent
end Ledger
end LockManager
