import LockManager.Proofs.Ledger.Step

set_option autoImplicit false

/-!
When nothing is left to do on a resource. No waiter could be granted, and no pending conversion
could be completed unless another lock holds the very mode it wants. Granting more never gives
anyone an opening, so only someone who leaves or changes mode makes it necessary to look at a
resource again.
-/

namespace LockManager

theorem Config.starves_passOver {config : Config} {l : Lock}
    (starved : config.starves l.bypassed = true) : config.starves l.passOver.bypassed = true := by
  cases limited : config.bypassLimit with
  | none => simp [starves, limited] at starved
  | some limit =>
    have below := limit.toNat_lt
    simp only [starves, limited, decide_eq_true_eq] at starved ⊢
    refine Nat.le_min.mpr ⟨Nat.le_succ_of_le starved, ?_⟩
    exact Nat.le_of_lt_succ below

namespace Queues

/-- Another granted lock stands against the entry. -/
def Opposed (q : Queues) (e : Entry) : Prop := ∃ g ∈ q.granted, g.opposes e.claim e.mode = true

/-- Another lock holds the mode that the entry is for, and that is one of two that cross. -/
def Overtaken (q : Queues) (e : Entry) : Prop :=
  e.mode.Crosses ∧ ∃ g ∈ q.granted, g.claim.id ≠ e.claim.id ∧ g.mode = e.mode ∧
    g.claim.policy.overlaps e.claim.policy = true

/-- A pending conversion cannot be completed, or has been overtaken. -/
def Kept (q : Queues) (e : Entry) : Prop := q.Opposed e ∨ q.Overtaken e

theorem Kept.mono {q q' : Queues} {e : Entry} (kept : q.Kept e) (more : q.granted ⊆ q'.granted) :
    q'.Kept e := by
  rcases kept with ⟨g, inside, against⟩ | ⟨cross, g, inside, same⟩
  · exact .inl ⟨g, more inside, against⟩
  · exact .inr ⟨cross, g, more inside, same⟩

/-- Completing the conversion `e` makes no room for another one, unless both are to the same of two
crossing modes. -/
theorem Kept.setGrantedMode {q : Queues} {x e : Entry} {old : Mode} (kept : q.Kept x)
    (other : e.claim.id ≠ x.claim.id) (up : old.raises e.mode = true)
    (sole : ∀ g ∈ q.granted, g.claim.id = e.claim.id → g = ⟨e.claim, old⟩) :
    (q.setGrantedMode e.claim.id e.mode).Kept x := by
  have stays : ∀ g ∈ q.granted, g.claim.id ≠ e.claim.id →
      g ∈ (q.setGrantedMode e.claim.id e.mode).granted := fun g inside apart =>
    mem_setGrantedMode.mpr ⟨g, inside, by rw [if_neg apart]⟩
  have turned : ∀ g ∈ q.granted, g.claim.id = e.claim.id →
      e ∈ (q.setGrantedMode e.claim.id e.mode).granted := by
    intro g inside same
    refine mem_setGrantedMode.mpr ⟨g, inside, ?_⟩
    rw [if_pos same, sole g inside same]
  rcases kept with ⟨g, inside, against⟩ | ⟨cross, g, inside, apart, same, meet⟩
  · by_cases mine : g.claim.id = e.claim.id
    · have holder := turned g inside mine
      obtain ⟨-, refuses, meet⟩ := Entry.opposes_iff.mp against
      rw [sole g inside mine] at refuses meet
      cases beside : e.mode.compatible x.mode with
      | false => exact .inl ⟨e, holder, Entry.opposes_iff.mpr ⟨other, beside, meet⟩⟩
      | true =>
        obtain ⟨equal, cross⟩ := Mode.crosses_of_raises up refuses beside
        exact .inr ⟨cross, e, holder, other, equal, meet⟩
    · exact .inl ⟨g, stays g inside mine, against⟩
  · by_cases mine : g.claim.id = e.claim.id
    · rw [sole g inside mine] at same meet
      have equal : old = x.mode := same
      have refuses := Mode.against_of_raises (equal ▸ up) cross
      exact .inl ⟨e, turned g inside mine, Entry.opposes_iff.mpr ⟨other, refuses, meet⟩⟩
    · exact .inr ⟨cross, g, stays g inside mine, apart, same, meet⟩

end Queues

namespace Ledger

def leaves (b : Ledger) (e : Entry) : Bool := (b.lock e.claim.id).state.leaving

/-- The lock of `e` has been passed over too often. -/
def Starved (b : Ledger) (e : Entry) : Prop :=
  b.leaves e = false ∧ b.config.starves (b.lock e.claim.id).bypassed = true

/-- The earlier waiter `y` keeps back the waiter `x`. -/
def HoldsBack (b : Ledger) (y x : Entry) : Prop :=
  y.claim.policy.overlaps x.claim.policy = true ∧
    (y.mode = x.mode ∧ b.leaves y = false ∨ y.mode.compatible x.mode = false ∧ b.Starved y)

/-- The waiter `x` of `r` cannot be granted. -/
def Blocked (b : Ledger) (r : ResourceId) (x : Entry) : Prop :=
  (b.queues r).Opposed x ∨
    (∃ e ∈ (b.queues r).converting, e.opposes x.claim x.mode = true ∧ b.Starved e) ∨
    ∃ y ∈ (b.queues r).waiting, y.claim.id < x.claim.id ∧ b.HoldsBack y x

/-- Nobody on `r` is to be granted anything. -/
def Settled (b : Ledger) (r : ResourceId) : Prop :=
  (∀ e ∈ (b.queues r).converting, b.leaves e = true ∨ (b.queues r).Kept e) ∧
    ∀ x ∈ (b.queues r).waiting, b.leaves x = true ∨ b.Blocked r x

/-- Someone on `r` is about to leave, so `r` will be looked at again. -/
def Stirred (b : Ledger) (r : ResourceId) : Prop := ∃ e ∈ (b.queues r).entries, b.leaves e = true

/-- `r` is settled or will be looked at again. -/
def Attended (b : Ledger) (r : ResourceId) : Prop := b.Stirred r ∨ b.Settled r

/-! ### Changes that give nobody an opening -/

/-- On `r` everyone has stayed, those who waited or converted still do so and have been passed over
at least as often as before, and whoever held something still holds it. -/
structure Tightens (r : ResourceId) (b b' : Ledger) : Prop where
  config : b'.config = b.config
  granted : (b.queues r).granted ⊆ (b'.queues r).granted
  converting : (b.queues r).converting ⊆ (b'.queues r).converting
  waiting : (b.queues r).waiting ⊆ (b'.queues r).waiting
  leaves : ∀ e ∈ (b.queues r).entries, b'.leaves e = b.leaves e
  starved : ∀ e, e ∈ (b.queues r).converting ∨ e ∈ (b.queues r).waiting →
    b.config.starves (b.lock e.claim.id).bypassed = true →
      b.config.starves (b'.lock e.claim.id).bypassed = true

namespace Tightens

variable {r : ResourceId} {b b' : Ledger}

/-- No lock with an entry on `r` has changed. -/
theorem of_lock_eq (config : b'.config = b.config)
    (granted : (b.queues r).granted ⊆ (b'.queues r).granted)
    (converting : (b.queues r).converting ⊆ (b'.queues r).converting)
    (waiting : (b.queues r).waiting ⊆ (b'.queues r).waiting)
    (locks : ∀ e ∈ (b.queues r).entries, b'.lock e.claim.id = b.lock e.claim.id) :
    Tightens r b b' := by
  refine ⟨config, granted, converting, waiting, fun e inside => ?_, fun e place => ?_⟩
  · rw [Ledger.leaves, Ledger.leaves, locks e inside]
  · rw [locks e (Queues.mem_entries.mpr (or_assoc.mpr (.inr place)))]
    exact id

theorem kept (t : Tightens r b b') {e : Entry} (inside : e ∈ (b.queues r).entries)
    (before : b.leaves e = true ∨ (b.queues r).Kept e) :
    b'.leaves e = true ∨ (b'.queues r).Kept e := by
  rw [t.leaves e inside]
  exact before.imp_right fun kept => kept.mono t.granted

theorem starving (t : Tightens r b b') {e : Entry}
    (place : e ∈ (b.queues r).converting ∨ e ∈ (b.queues r).waiting) (before : b.Starved e) :
    b'.Starved e := by
  constructor
  · rw [t.leaves e (Queues.mem_entries.mpr (or_assoc.mpr (.inr place)))]
    exact before.1
  · rw [t.config]
    exact t.starved e place before.2

theorem blocked (t : Tightens r b b') {x : Entry} (before : b.Blocked r x) : b'.Blocked r x := by
  rcases before with ⟨g, inside, against⟩ | ⟨e, inside, against, starved⟩ |
    ⟨y, inside, earlier, meet, same | ⟨against, starved⟩⟩
  · exact .inl ⟨g, t.granted inside, against⟩
  · exact .inr (.inl ⟨e, t.converting inside, against, t.starving (.inl inside) starved⟩)
  · refine .inr (.inr ⟨y, t.waiting inside, earlier, meet, .inl ⟨same.1, ?_⟩⟩)
    rw [t.leaves y (Queues.mem_entries.mpr (.inr inside))]
    exact same.2
  · exact .inr (.inr ⟨y, t.waiting inside, earlier, meet,
      .inr ⟨against, t.starving (.inr inside) starved⟩⟩)

theorem waiting_blocked (t : Tightens r b b') {x : Entry} (inside : x ∈ (b.queues r).waiting)
    (before : b.leaves x = true ∨ b.Blocked r x) : b'.leaves x = true ∨ b'.Blocked r x := by
  rw [t.leaves x (Queues.mem_entries.mpr (.inr inside))]
  exact before.imp_right t.blocked

/-- A resource stays attended if those who have come to wait or convert have to. -/
theorem attended (t : Tightens r b b')
    (converts : ∀ e ∈ (b'.queues r).converting, e ∈ (b.queues r).converting ∨ (b'.queues r).Kept e)
    (waits : ∀ x ∈ (b'.queues r).waiting, x ∈ (b.queues r).waiting ∨ b'.Blocked r x)
    (before : b.Attended r) : b'.Attended r := by
  rcases before with ⟨e, inside, gone⟩ | ⟨conversions, waiters⟩
  · refine .inl ⟨e, ?_, ?_⟩
    · rcases Queues.mem_entries.mp inside with (held | pending) | waiting
      · exact Queues.mem_entries.mpr (.inl (.inl (t.granted held)))
      · exact Queues.mem_entries.mpr (.inl (.inr (t.converting pending)))
      · exact Queues.mem_entries.mpr (.inr (t.waiting waiting))
    · rw [t.leaves e inside]
      exact gone
  · refine .inr ⟨?_, ?_⟩
    · intro e inside
      rcases converts e inside with old | kept
      · exact t.kept (Queues.mem_entries.mpr (.inl (.inr old))) (conversions e old)
      · exact .inr kept
    · intro x inside
      rcases waits x inside with old | blocked
      · exact t.waiting_blocked old (waiters x old)
      · exact .inr blocked

end Tightens

/-- Nothing has changed on `r`. -/
theorem Attended.congr {r : ResourceId} {b b' : Ledger} (before : b.Attended r)
    (config : b'.config = b.config) (queues : b'.queues r = b.queues r)
    (locks : ∀ e ∈ (b.queues r).entries, b'.lock e.claim.id = b.lock e.claim.id) :
    b'.Attended r := by
  have tightens : Tightens r b b' := by
    refine .of_lock_eq config ?_ ?_ ?_ locks <;>
    · rw [queues]
      exact List.Subset.refl _
  refine tightens.attended ?_ ?_ before
  · intro e inside
    rw [queues] at inside
    exact .inl inside
  · intro x inside
    rw [queues] at inside
    exact .inl inside

theorem tightens_pass (b : Ledger) (r : ResourceId) (l : LockId) : Tightens r b (b.pass l) := by
  refine ⟨rfl, fun _ inside => inside, fun _ inside => inside, fun _ inside => inside, ?_, ?_⟩
  · intro e _
    by_cases same : e.claim.id = l
    · rw [leaves, leaves, pass, same, lock_set_self]
      rfl
    · rw [leaves, leaves, pass, lock_set_of_ne _ _ same]
  · intro e _ starved
    by_cases same : e.claim.id = l
    · rw [same] at starved
      rw [pass, same, lock_set_self]
      exact Config.starves_passOver starved
    · rw [pass, lock_set_of_ne _ _ same]
      exact starved

theorem Attended.pass {b : Ledger} {r : ResourceId} (before : b.Attended r) (l : LockId) :
    (b.pass l).Attended r :=
  (b.tightens_pass r l).attended (fun _ old => .inl old) (fun _ old => .inl old) before

/-- Where a lock that begins to leave has an entry, the resource will be looked at again. -/
theorem Attended.mark {b : Ledger} {r : ResourceId} (before : b.Attended r) (l : LockId) :
    (b.set l ((b.lock l).enter .canceling)).Attended r := by
  by_cases present : ∃ e ∈ (b.queues r).entries, e.claim.id = l
  · obtain ⟨e, inside, same⟩ := present
    refine .inl ⟨e, inside, ?_⟩
    rw [leaves, same, lock_set_self]
    rfl
  · refine before.congr rfl rfl fun e inside => b.lock_set_of_ne _ fun same => ?_
    exact present ⟨e, inside, same⟩

theorem Passes.blocked {r r' : ResourceId} {b b' : Ledger} (passed : Passes r b b') {x : Entry}
    (before : b.Blocked r' x) : b'.Blocked r' x := by
  induction passed with
  | none => exact before
  | pass _ _ _ ih => exact (tightens_pass _ r' _).blocked ih

theorem Passes.attended {r r' : ResourceId} {b b' : Ledger} (passed : Passes r b b')
    (before : b.Attended r') : b'.Attended r' := by
  induction passed with
  | none => exact before
  | pass _ _ _ ih => exact ih.pass _

namespace Coherent

variable {b : Ledger}

theorem ne_of_empty (c : b.Coherent) {l : LockId} (known : l < b.size)
    (none : (b.home l).of l = {}) {r : ResourceId} {e : Entry} (inside : e ∈ (b.queues r).entries) :
    e.claim.id ≠ l :=
  Queues.not_mem_of_empty (c.home_of_empty known none r) inside

/-- What happens on one resource does not concern another. -/
theorem attended_elsewhere (c : b.Coherent) {l : LockId} (x : Lock) (q : Queues) {r : ResourceId}
    (other : r ≠ (b.lock l).resource) (before : b.Attended r) : (b.seat l x q).Attended r := by
  refine before.congr rfl (b.queues_seat_of_ne x q other) fun e inside => ?_
  apply b.lock_seat_of_ne x q
  intro same
  exact other (same ▸ (c.bound inside).symm)

/-- A change of a lock without entries concerns no resource. -/
theorem attended_set (c : b.Coherent) {l : LockId} (known : l < b.size) (x : Lock)
    (none : (b.home l).of l = {}) {r : ResourceId} (before : b.Attended r) :
    (b.set l x).Attended r :=
  before.congr rfl rfl fun _ inside => b.lock_set_of_ne x (c.ne_of_empty known none inside)

theorem attended_extend (c : b.Coherent) (x : Lock) {r : ResourceId} (before : b.Attended r) :
    (b.extend x).Attended r :=
  before.congr rfl rfl fun e inside => Function.update_of_ne (Nat.ne_of_lt (c.known r e inside)) ..

theorem attended_accept (c : b.Coherent) {l : LockId} (known : l < b.size)
    (enqueued : (b.lock l).state = .enqueued) {r : ResourceId} (before : b.Attended r) :
    (b.accept l).Attended r := by
  by_cases here : r = (b.lock l).resource
  · subst here
    have own := c.seated l known
    rw [Lock.Seated, enqueued] at own
    have now : (b.accept l).queues (b.lock l).resource =
        (b.home l).addGranted ⟨(b.lock l).claim, (b.lock l).requestedMode⟩ :=
      b.queues_seat_self ..
    have tightens : Tightens (b.lock l).resource b (b.accept l) := by
      refine .of_lock_eq rfl ?_ ?_ ?_ fun _ inside =>
        b.lock_seat_of_ne _ _ (c.ne_of_empty known own.of_enqueued.2 inside)
      · rw [now]
        exact List.subset_append_left _ _
      · rw [now]
        exact List.Subset.refl _
      · rw [now]
        exact List.Subset.refl _
    refine tightens.attended ?_ ?_ before
    · intro e inside
      rw [now] at inside
      exact .inl inside
    · intro x inside
      rw [now] at inside
      exact .inl inside
  · exact c.attended_elsewhere _ _ here before

/-- A lock that could not be granted waits. -/
theorem attended_wait (c : b.Coherent) {l : LockId} (known : l < b.size)
    (enqueued : (b.lock l).state = .enqueued)
    (blocked : b.Blocked (b.lock l).resource ⟨(b.lock l).claim, (b.lock l).requestedMode⟩)
    {r : ResourceId} (before : b.Attended r) : (b.wait l).Attended r := by
  by_cases here : r = (b.lock l).resource
  · subst here
    have own := c.seated l known
    rw [Lock.Seated, enqueued] at own
    have now : (b.wait l).queues (b.lock l).resource =
        (b.home l).addWaiting ⟨(b.lock l).claim, (b.lock l).requestedMode⟩ :=
      b.queues_seat_self ..
    have tightens : Tightens (b.lock l).resource b (b.wait l) := by
      refine .of_lock_eq rfl ?_ ?_ ?_ fun _ inside =>
        b.lock_seat_of_ne _ _ (c.ne_of_empty known own.of_enqueued.2 inside)
      · rw [now]
        exact List.Subset.refl _
      · rw [now]
        exact List.Subset.refl _
      · rw [now]
        exact fun _ inside => Queues.mem_addWaiting.mpr (.inr inside)
    refine tightens.attended ?_ ?_ before
    · intro e inside
      rw [now] at inside
      exact .inl inside
    · intro x inside
      rw [now] at inside
      rcases Queues.mem_addWaiting.mp inside with rfl | old
      · exact .inr (tightens.blocked blocked)
      · exact .inl old
  · exact c.attended_elsewhere _ _ here before

/-- A conversion that something stands against is kept. -/
theorem attended_pend (c : b.Coherent) {l : LockId} {mode : Mode} (known : l < b.size)
    (granted : (b.lock l).state = .granted) (blocked : b.opposed l mode = true)
    {r : ResourceId} (before : b.Attended r) : (b.pend l mode).Attended r := by
  by_cases here : r = (b.lock l).resource
  · subst here
    have own := c.seated l known
    rw [Lock.Seated, granted] at own
    have now : (b.pend l mode).queues (b.lock l).resource =
        (b.home l).addConverting ⟨(b.lock l).claim, mode⟩ := b.queues_seat_self ..
    have others : ∀ e, e ∈ (b.queues (b.lock l).resource).converting ∨
        e ∈ (b.queues (b.lock l).resource).waiting →
        (b.pend l mode).lock e.claim.id = b.lock e.claim.id := by
      intro e place
      apply b.lock_seat_of_ne _ _
      intro same
      have mine : e ∈ ((b.home l).of l).converting ∨ e ∈ ((b.home l).of l).waiting :=
        place.imp (fun inside => Queues.mem_converting_of.mpr ⟨inside, same⟩)
          fun inside => Queues.mem_waiting_of.mpr ⟨inside, same⟩
      rw [own.of_state_granted.2] at mine
      simp at mine
    have tightens : Tightens (b.lock l).resource b (b.pend l mode) := by
      refine ⟨rfl, ?_, ?_, ?_, ?_, ?_⟩
      · rw [now]
        exact List.Subset.refl _
      · rw [now]
        exact List.subset_append_left _ _
      · rw [now]
        exact List.Subset.refl _
      · intro e _
        by_cases same : e.claim.id = l
        · rw [leaves, leaves, same, granted, Ledger.pend, lock_seat_self]
          rfl
        · rw [leaves, leaves, Ledger.pend, lock_seat_of_ne _ _ _ same]
      · intro e place
        rw [others e place]
        exact id
    refine tightens.attended ?_ ?_ before
    · intro e inside
      rw [now] at inside ⊢
      rcases List.mem_append.mp inside with old | fresh
      · exact .inl old
      · rw [List.mem_singleton] at fresh
        subst fresh
        exact .inr (.inl (List.any_eq_true.mp blocked))
    · intro x inside
      rw [now] at inside
      exact .inl inside
  · exact c.attended_elsewhere _ _ here before

/-! ### Looking at a resource again -/

theorem ne_of_waiting (c : b.Coherent) {l : LockId} (waits : (b.lock l).state = .waiting)
    {r : ResourceId} {e : Entry} (inside : e ∈ (b.queues r).converting) : e.claim.id ≠ l := by
  rintro rfl
  have own := c.seat_of_mem (Queues.mem_entries.mpr (.inl (.inr inside)))
  rw [Lock.Seated, waits] at own
  have converts : e ∈ ((b.queues r).of e.claim.id).converting :=
    Queues.mem_converting_of.mpr ⟨inside, rfl⟩
  rw [own.of_state_waiting.2] at converts
  simp at converts

/-- Whoever came before the lock that is served stays blocked. -/
theorem blocked_serve (c : b.Coherent) {l : LockId} (waits : (b.lock l).state = .waiting) {x : Entry}
    (before : x.claim.id < l) (blocked : b.Blocked (b.lock l).resource x) :
    (b.serve l).Blocked (b.lock l).resource x := by
  have now : (b.serve l).queues (b.lock l).resource =
      ((b.home l).dropWaiting l).addGranted ⟨(b.lock l).claim, (b.lock l).requestedMode⟩ :=
    b.queues_seat_self ..
  have others : ∀ k, k ≠ l → (b.serve l).lock k = b.lock k := fun k other =>
    b.lock_seat_of_ne _ _ other
  unfold Blocked
  rw [now]
  rcases blocked with ⟨g, inside, against⟩ | ⟨e, inside, against, starved⟩ |
    ⟨y, inside, earlier, meet, same⟩
  · exact .inl ⟨g, List.mem_append_left _ inside, against⟩
  · refine .inr (.inl ⟨e, inside, against, ?_⟩)
    rw [Starved, leaves, others _ (c.ne_of_waiting waits inside)]
    exact starved
  · have other : y.claim.id ≠ l := Nat.ne_of_lt (Nat.lt_trans earlier before)
    refine .inr (.inr ⟨y, ?_, earlier, meet, ?_⟩)
    · exact List.mem_filter.mpr ⟨inside, bne_iff_ne.mpr other⟩
    · rw [Starved, leaves, others _ other]
      exact same

theorem kept_complete (c : b.Coherent) {r : ResourceId} {e x : Entry}
    (inside : e ∈ (b.queues r).converting) (stays : b.leaves e = false)
    (other : e.claim.id ≠ x.claim.id) (kept : (b.queues r).Kept x) :
    ((b.complete e.claim.id).queues r).Kept x := by
  obtain ⟨-, same, old, up, holds⟩ := c.of_converting inside stays
  have bound := c.bound (Queues.mem_entries.mpr (.inl (.inr inside)))
  have mode : (b.lock e.claim.id).requestedMode = e.mode := (congrArg Entry.mode same).symm
  have now : (b.complete e.claim.id).queues r =
      ((b.queues r).dropConverting e.claim.id).setGrantedMode e.claim.id e.mode := by
    rw [← bound, ← mode]
    exact b.queues_seat_self ..
  rw [now]
  apply kept.setGrantedMode other up
  intro g inside same
  have mine := (c.of_granted holds).2
  have member : g ∈ ((b.queues r).of e.claim.id).granted := Queues.mem_granted_of.mpr ⟨inside, same⟩
  rw [mine] at member
  exact List.mem_singleton.mp member

theorem attended_grant (c : b.Coherent) {r r' : ResourceId} {b' : Ledger} (done : Grant r b b')
    (other : r' ≠ r) (before : b.Attended r') : b'.Attended r' := by
  cases done with
  | pass _ _ => exact before.pass _
  | serve _ bound _ _ => exact c.attended_elsewhere _ _ (bound ▸ other) before
  | complete _ bound _ _ => exact c.attended_elsewhere _ _ (bound ▸ other) before

theorem attended_grants (c : b.Coherent) {r r' : ResourceId} {b' : Ledger} (done : Grants r b b')
    (other : r' ≠ r) (before : b.Attended r') : b'.Attended r' := by
  induction done with
  | refl => exact before
  | tail run last ih => exact (c.steps (Grants.steps run)).attended_grant last other ih

end Coherent

end Ledger
end LockManager
