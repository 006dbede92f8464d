import LockManager.Proofs.Ledger.Leaving
import LockManager.Proofs.Ledger.Shift
import Mathlib.Data.Finset.Card

set_option autoImplicit false

/-!
Who is granted past those that wait. A first grant is counted once on every lock that it passes over,
whether that waits for a grant of its own or for another mode than it holds; and it passes over nobody
that has been passed over too often.
-/

namespace LockManager

namespace Lock

/-- It waits for its first grant, or for another mode than the one it holds. -/
def Pends (x : Lock) : Prop := x.state = .waiting ∨ x.state = .converting

instance (x : Lock) : Decidable x.Pends := inferInstanceAs (Decidable (_ ∨ _))

theorem limit_le_bypassCap (n : UInt32) : n.toNat ≤ bypassCap :=
  Nat.le_sub_one_of_lt n.toNat_lt

theorem bypassed_iterate {m limit : Nat} {x : Lock} (capped : x.bypassed + m ≤ max x.bypassed limit)
    (small : limit ≤ bypassCap) : (passOver^[m] x).bypassed = x.bypassed + m := by
  induction m with
  | zero => rfl
  | succ m ih =>
    rw [Function.iterate_succ_apply', passOver, ih (by omega)]
    exact Nat.min_eq_left (by omega)

theorem bypassed_iterate_min (m : Nat) {x : Lock} (capped : x.bypassed ≤ bypassCap) :
    (passOver^[m] x).bypassed = min (x.bypassed + m) bypassCap := by
  induction m with
  | zero => exact (Nat.min_eq_left capped).symm
  | succ m ih =>
    rw [Function.iterate_succ_apply', passOver, ih]
    dsimp only
    omega

end Lock

theorem Seat.held_eq_none_iff {claim : Claim} {state : LockState} {wanted : Mode}
    {held : Option Mode} {own : Queues} (seat : Seat claim state wanted held own) :
    held = none ↔ own.granted = [] := by
  induction seat with
  | canceling _ ih => exact ih
  | _ => simp

/-- The one entry with which a lock waits is passed over, or it is not. -/
theorem Seat.passed {claim : Claim} {state : LockState} {wanted : Mode}
    {held : Option Mode} {own : Queues} (seat : Seat claim state wanted held own)
    (stays : state.leaving = false) (later : Claim) (mode : Mode) :
    own.passed later mode =
      if (state = .converting ∨ state = .waiting ∧ claim.id < later.id) ∧
        Entry.opposes ⟨claim, wanted⟩ later mode = true then 1 else 0 := by
  cases seat with
  | waiting =>
    by_cases before : claim.id < later.id
    · by_cases against : Entry.opposes ⟨claim, wanted⟩ later mode <;>
        simp [Queues.passed, before, against]
    · simp [Queues.passed, before]
  | converting _ =>
    by_cases against : Entry.opposes ⟨claim, wanted⟩ later mode <;> simp [Queues.passed, against]
  | canceling _ => simp [LockState.leaving] at stays
  | _ => simp [Queues.passed]

namespace Ledger

/-- A lock on the same resource is granted for the first time, in a mode that stands against what `l`
waits for. If `l` waits for its own first grant, the other one has arrived later. -/
def Outruns (b b' : Ledger) (l k : LockId) : Prop :=
  ((b.lock l).state = .converting ∨ (b.lock l).state = .waiting ∧ l < k) ∧
    (b'.lock k).resource = (b.lock l).resource ∧ (b.lock k).grantedMode = none ∧
    (b'.lock k).grantedMode.any (fun held => conflicts held (b'.lock k).claim.policy
      (b.lock l).requestedMode (b.lock l).claim.policy) = true

instance (b b' : Ledger) (l k : LockId) : Decidable (b.Outruns b' l k) :=
  inferInstanceAs (Decidable (_ ∧ _ ∧ _ ∧ _))

/-- Those who are granted past `l` between `b` and `b'`. -/
def outrunners (b b' : Ledger) (l : LockId) : Finset LockId :=
  (Finset.range b'.size).filter (b.Outruns b' l)

/-- Nothing has happened to `l` but that it has been passed over by so many, and never beyond the
limit. -/
structure Tallied (l : LockId) (b b' : Ledger) : Prop where
  lock : b'.lock l = Lock.passOver^[(b.outrunners b' l).card] (b.lock l)
  capped : ∀ n, b.config.bypassLimit = some n →
    (b.lock l).bypassed + (b.outrunners b' l).card ≤ max (b.lock l).bypassed n.toNat

variable {b b' b'' : Ledger} {r : ResourceId} {k l : LockId}

/-- Only how often the lock was passed over has changed. -/
abbrev Recounted (x x' : Lock) : Prop := ∃ n, x' = { x with bypassed := n }

theorem Recounted.refl (x : Lock) : Recounted x x := ⟨_, rfl⟩

theorem Recounted.trans {x x' x'' : Lock} (first : Recounted x x') (second : Recounted x' x'') :
    Recounted x x'' := by
  obtain ⟨n, rfl⟩ := first
  exact second

theorem Recounted.state {x x' : Lock} (same : Recounted x x') : x'.state = x.state := by
  obtain ⟨n, rfl⟩ := same
  rfl

/-! ### Changes that grant nobody anything -/

/-- Nobody has been granted anything for the first time. -/
def Barren (b b' : Ledger) : Prop :=
  ∀ l, (b.lock l).grantedMode = none → (b'.lock l).grantedMode = none

namespace Barren

theorem seat {x : Lock} (q : Queues)
    (nothing : (b.lock k).grantedMode = none → x.grantedMode = none) : Barren b (b.seat k x q) := by
  intro l before
  by_cases here : l = k
  · subst here
    rw [lock_seat_self]
    exact nothing before
  · rw [lock_seat_of_ne _ _ _ here]
    exact before

theorem set {x : Lock} (nothing : (b.lock k).grantedMode = none → x.grantedMode = none) :
    Barren b (b.set k x) := by
  rw [set_eq_seat]
  exact seat _ nothing

theorem extend {x : Lock} (nothing : x.grantedMode = none) : Barren b (b.extend x) := by
  intro l before
  by_cases here : l = b.size
  · rw [here, show (b.extend x).lock b.size = x from Function.update_self ..]
    exact nothing
  · rw [show (b.extend x).lock l = b.lock l from Function.update_of_ne here ..]
    exact before

theorem outrunners (barren : Barren b b') (l : LockId) : b.outrunners b' l = ∅ := by
  apply Finset.filter_eq_empty_iff.mpr
  rintro j - ⟨-, -, none, granted⟩
  rw [barren j none] at granted
  cases granted

end Barren

theorem outrunners_of_not_pends (idle : ¬(b.lock l).Pends) : b.outrunners b' l = ∅ := by
  apply Finset.filter_eq_empty_iff.mpr
  rintro j - ⟨converts | ⟨waits, -⟩, -⟩
  · exact idle (.inr converts)
  · exact idle (.inl waits)

namespace Tallied

theorem of_barren (barren : Barren b b') (same : b'.lock l = b.lock l) : Tallied l b b' := by
  constructor
  · rw [barren.outrunners, same]
    rfl
  · rw [barren.outrunners]
    exact fun _ _ => Nat.le_max_left _ _

theorem refl (l : LockId) (b : Ledger) : Tallied l b b := of_barren (fun _ => id) rfl

theorem recounted (tallied : Tallied l b b') : Recounted (b.lock l) (b'.lock l) := by
  rw [tallied.lock]
  generalize (b.outrunners b' l).card = m
  induction m with
  | zero => exact .refl _
  | succ m ih =>
    rw [Function.iterate_succ_apply']
    exact ih.trans ⟨_, rfl⟩

/-- What grants nobody anything may come before, and so may what takes from a lock that gets nothing
again. -/
theorem head (same : b'.lock l = b.lock l) (config : b'.config = b.config)
    (holds : ∀ j, (b''.lock j).grantedMode ≠ none →
      ((b.lock j).grantedMode = none ↔ (b'.lock j).grantedMode = none))
    (after : Tallied l b' b'') : Tallied l b b'' := by
  have equal : b.outrunners b'' l = b'.outrunners b'' l := by
    refine Finset.filter_congr fun j _ => ?_
    unfold Outruns
    rw [same]
    refine and_congr_right fun _ => and_congr_right fun _ => and_congr_left fun granted => ?_
    exact holds j fun none => by simp [none] at granted
  constructor
  · rw [equal, after.lock, same]
  · rw [equal, ← same, ← config]
    exact after.capped

/-- Locks that are done with may be put away afterwards. -/
theorem tail (before : Tallied l b b') (size : b''.size = b'.size) (same : b''.lock l = b'.lock l)
    (others : ∀ j, (b''.lock j).grantedMode = (b'.lock j).grantedMode ∧
      (b''.lock j).resource = (b'.lock j).resource ∧ (b''.lock j).claim = (b'.lock j).claim) :
    Tallied l b b'' := by
  have equal : b.outrunners b'' l = b.outrunners b' l := by
    unfold outrunners
    rw [size]
    refine Finset.filter_congr fun j _ => ?_
    obtain ⟨granted, bound, claim⟩ := others j
    rw [Outruns, Outruns, granted, bound, claim]
  constructor
  · rw [equal, same, before.lock]
  · rw [equal]
    exact before.capped

end Tallied

/-! ### A grant is counted -/

theorem recounted_charge (b : Ledger) (r : ResourceId) (claim : Claim) (mode : Mode)
    (l : LockId) : Recounted (b.lock l) ((b.charge r claim mode).lock l) := by
  unfold charge
  dsimp only
  generalize Queues.passed _ _ _ = n
  induction n with
  | zero => exact .refl _
  | succ n ih =>
    rw [Function.iterate_succ_apply']
    exact ih.trans ⟨_, rfl⟩

/-- Whoever is granted `mode` on `r` is granted it past the lock `l`. -/
def Passed (b : Ledger) (r : ResourceId) (l : LockId) (claim : Claim) (mode : Mode) : Prop :=
  (b.lock l).resource = r ∧
    ((b.lock l).state = .converting ∨ (b.lock l).state = .waiting ∧ l < claim.id) ∧
    Entry.opposes ⟨(b.lock l).claim, (b.lock l).requestedMode⟩ claim mode = true

instance (b : Ledger) (r : ResourceId) (l : LockId) (claim : Claim) (mode : Mode) :
    Decidable (b.Passed r l claim mode) :=
  inferInstanceAs (Decidable (_ ∧ _ ∧ _))

namespace Coherent

theorem lock_charge (c : b.Coherent) (known : l < b.size) (stays : (b.lock l).state.leaving = false)
    (claim : Claim) (mode : Mode) : (b.charge r claim mode).lock l =
      if b.Passed r l claim mode then (b.lock l).passOver else b.lock l := by
  rw [show (b.charge r claim mode).lock l =
    Lock.passOver^[((b.queues r).of l).passed claim mode] (b.lock l) from rfl]
  by_cases here : (b.lock l).resource = r
  · have own := c.seated l known
    rw [home, here] at own
    simp only [own.passed stays, c.named l known, Passed, here, true_and]
    split <;> rfl
  · rw [c.elsewhere l known r (Ne.symm here), if_neg fun passed => here passed.1]
    rfl

/-- Whoever is granted past a lock does not find it starved. -/
theorem bypassed_lt (c : b.Coherent) (known : l < b.size) {n : UInt32}
    (limited : b.config.bypassLimit = some n) {claim : Claim} {mode : Mode}
    (free : ¬b.Blocked r ⟨claim, mode⟩) (passed : b.Passed r l claim mode) :
    (b.lock l).bypassed < n.toNat := by
  obtain ⟨rfl, wants, against⟩ := passed
  have named := c.named l known
  have own := c.seated l known
  by_contra many
  have starves : b.config.starves (b.lock l).bypassed = true := by
    simp only [Config.starves, limited, decide_eq_true_eq]
    exact Nat.le_of_not_lt many
  have starved (mode' : Mode) (state : LockState) (now : (b.lock l).state = state)
      (stays : state.leaving = false) : b.Starved ⟨(b.lock l).claim, mode'⟩ := by
    refine ⟨?_, named.symm ▸ starves⟩
    rw [leaves, named, now, stays]
  rw [Lock.Seated] at own
  rcases wants with converts | ⟨waits, before⟩
  · rw [converts] at own
    obtain ⟨old, -, -, entries⟩ := own.of_state_converting
    have inside : (⟨(b.lock l).claim, (b.lock l).requestedMode⟩ : Entry) ∈ (b.home l).converting := by
      refine (Queues.mem_converting_of (l := l).mp ?_).1
      rw [entries]
      exact List.mem_singleton_self _
    exact free (.inr (.inl ⟨_, inside, against, starved _ _ converts rfl⟩))
  · obtain ⟨-, refuses, meet⟩ := Entry.opposes_iff.mp against
    rw [waits] at own
    have inside : (⟨(b.lock l).claim, (b.lock l).requestedMode⟩ : Entry) ∈ (b.home l).waiting := by
      refine (Queues.mem_waiting_of (l := l).mp ?_).1
      rw [own.of_state_waiting.2]
      exact List.mem_singleton_self _
    exact free (.inr (.inr ⟨_, inside, named.symm ▸ before, meet,
      .inr ⟨refuses, starved _ _ waits rfl⟩⟩))

end Coherent

/-- A lock that changes may be new among those who have been granted past `l`; the others are the same. -/
theorem card_outrunners (size : b''.size = b'.size) (known : k < b'.size)
    (others : ∀ j, j ≠ k → Recounted (b'.lock j) (b''.lock j)) (before : ¬b.Outruns b' l k) :
    (b.outrunners b'' l).card =
      (b.outrunners b' l).card + if b.Outruns b'' l k then 1 else 0 := by
  have same {j : LockId} (other : j ≠ k) : j ∈ b.outrunners b'' l ↔ j ∈ b.outrunners b' l := by
    obtain ⟨n, recounted⟩ := others j other
    simp only [outrunners, Finset.mem_filter, Finset.mem_range, size, Outruns, recounted]
  have absent : k ∉ b.outrunners b' l := fun inside => before (Finset.mem_filter.mp inside).2
  split
  · next outruns =>
    rw [← Finset.card_insert_of_notMem absent]
    congr 1
    ext j
    rw [Finset.mem_insert]
    by_cases here : j = k
    · rw [here]
      exact iff_of_true (Finset.mem_filter.mpr ⟨Finset.mem_range.mpr (size ▸ known), outruns⟩) (.inl rfl)
    · rw [same here, or_iff_right here]
  · next spared =>
    rw [Nat.add_zero]
    congr 1
    ext j
    by_cases here : j = k
    · rw [here]
      exact iff_of_false (fun inside => spared (Finset.mem_filter.mp inside).2) absent
    · exact same here

/-- A grant is counted on whoever it passes over. -/
theorem Tallied.grant (before : Tallied l b b') (c : b'.Coherent) (config : b'.config = b.config)
    (known : l < b'.size) (stays : (b'.lock l).state.leaving = false) (other : k ≠ l)
    (known' : k < b'.size) (bound : (b'.lock k).resource = r) (nothing : (b.lock k).grantedMode = none)
    (nothing' : (b'.lock k).grantedMode = none) {x : Lock} {q : Queues}
    (claim : x.claim = (b'.lock k).claim) (resource : x.resource = (b'.lock k).resource)
    (holds : x.grantedMode = some (b'.lock k).requestedMode)
    (free : ¬b'.Blocked r ⟨(b'.lock k).claim, (b'.lock k).requestedMode⟩) :
    Tallied l b ((b'.charge r (b'.lock k).claim (b'.lock k).requestedMode).seat k x q) := by
  have self := (b'.charge r (b'.lock k).claim (b'.lock k).requestedMode).lock_seat_self k x q
  have size : ((b'.charge r (b'.lock k).claim (b'.lock k).requestedMode).seat k x q).size =
      b'.size := rfl
  have count := card_outrunners (b := b) (l := l) size known' (fun j apart => by
    rw [lock_seat_of_ne _ _ _ apart]
    exact recounted_charge ..) fun outruns => by simp [Outruns, nothing'] at outruns
  have after := c.lock_charge (r := r) known stays (b'.lock k).claim (b'.lock k).requestedMode
  rw [← lock_seat_of_ne _ x q other.symm] at after
  -- Whoever is granted past `l` is one that passes it over.
  have passes : b.Outruns ((b'.charge r (b'.lock k).claim
      (b'.lock k).requestedMode).seat k x q) l k ↔
      b'.Passed r l (b'.lock k).claim (b'.lock k).requestedMode := by
    obtain ⟨m, same⟩ := before.recounted
    have named : (b'.lock k).claim.id = k := c.named k known'
    have own : (b'.lock l).claim.id = l := c.named l known
    have apart : ((b'.lock l).claim.id != (b'.lock k).claim.id) = true := by
      rw [named, own]
      exact bne_iff_ne.mpr other.symm
    rw [Outruns, self, holds, claim, resource, bound, Option.any_some, conflicts_comm, Passed,
      Entry.opposes, apart, named, same]
    simp only [nothing, true_and, Bool.true_and]
    exact and_left_comm.trans (and_congr_left fun _ => eq_comm)
  by_cases passed : b'.Passed r l (b'.lock k).claim (b'.lock k).requestedMode
  · rw [if_pos (passes.mpr passed)] at count
    rw [if_pos passed] at after
    constructor
    · rw [count, after, Function.iterate_succ_apply', before.lock]
    · intro n limited
      have below := c.bypassed_lt known (config ▸ limited) free passed
      have capped := before.capped n limited
      rw [before.lock, Lock.bypassed_iterate capped (Lock.limit_le_bypassCap n)] at below
      rw [count]
      omega
  · rw [if_neg fun outruns => passed (passes.mp outruns), Nat.add_zero] at count
    rw [if_neg passed] at after
    constructor
    · rw [count, after, before.lock]
    · rw [count]
      exact before.capped

/-- A conversion that is completed passes over nobody. -/
theorem Tallied.complete (before : Tallied l b b') (other : l ≠ k) (known' : k < b'.size)
    (held : (b.lock k).grantedMode ≠ none) : Tallied l b (b'.complete k) := by
  have others (j : LockId) (apart : j ≠ k) : Recounted (b'.lock j) ((b'.complete k).lock j) := by
    rw [Ledger.complete, lock_seat_of_ne _ _ _ apart]
    exact .refl _
  have held' : ¬b.Outruns b' l k := fun outruns => held outruns.2.2.1
  have size : (b'.complete k).size = b'.size := rfl
  have count := card_outrunners size known' others held'
  rw [if_neg fun outruns => held outruns.2.2.1, Nat.add_zero] at count
  have same : (b'.complete k).lock l = b'.lock l := lock_seat_of_ne _ _ _ other
  constructor
  · rw [count, same, before.lock]
  · rw [count]
    exact before.capped

/-! ### Looking at a resource again -/

/-- A lock that is not granted by it waits as it did. -/
theorem Award.recounted (done : Award r b b') (still : (b'.lock l).state ≠ .granted) :
    Recounted (b.lock l) (b'.lock l) := by
  cases done with
  | @serve k _ _ _ _ _ =>
    have other : l ≠ k := by
      rintro rfl
      exact still (by rw [Ledger.serve, lock_seat_self]; rfl)
    rw [Ledger.serve, lock_seat_of_ne _ _ _ other]
    exact recounted_charge ..
  | @complete k _ _ _ _ =>
    have other : l ≠ k := by
      rintro rfl
      exact still (by rw [Ledger.complete, lock_seat_self]; rfl)
    rw [Ledger.complete, lock_seat_of_ne _ _ _ other]
    exact .refl _

theorem Awards.recounted (done : Awards r b b') (still : (b'.lock l).state ≠ .granted) :
    Recounted (b.lock l) (b'.lock l) := by
  induction done with
  | refl => exact .refl _
  | tail _ last ih =>
    have same := last.recounted still
    exact (ih (same.state ▸ still)).trans same

/-- Whoever is granted nothing when a resource is looked at again has been passed over by those who are
granted past it. -/
theorem Awards.tallied (c : b.Coherent) (known : l < b.size) (done : Awards r b b')
    (stays : (b'.lock l).state.leaving = false) (still : (b'.lock l).state ≠ .granted) :
    Tallied l b b' := by
  induction done with
  | refl => exact .refl l _
  | @tail b' b'' before last ih =>
    have keeps := Keeps.grants (Awards.grants before)
    have c' := c.steps (Awards.grants before).steps
    have same := (last.recounted still).state
    rw [same] at stays still
    have sofar := ih stays still
    -- Whoever waits or converts now has done so all along.
    have early {k : LockId} (known' : k < b'.size) (now : (b'.lock k).state ≠ .granted) :
        (b.lock k).Seated ((b.home k).of k) ∧ (b'.lock k).Seated ((b'.home k).of k) ∧
          (b.lock k).state = (b'.lock k).state :=
      ⟨c.seated k (keeps.size ▸ known'), c'.seated k known', (Awards.recounted before now).state.symm⟩
    cases last with
    | @serve k known' bound waits free passed =>
      have other : k ≠ l := by
        rintro rfl
        rw [Ledger.serve, lock_seat_self, waits] at same
        cases same
      obtain ⟨own, own', first⟩ := early known' (by rw [waits]; decide)
      rw [Lock.Seated, first, waits] at own
      rw [Lock.Seated, waits] at own'
      obtain ⟨m, charged⟩ :=
        recounted_charge b' r (b'.lock k).claim (b'.lock k).requestedMode k
      refine sofar.grant c' keeps.config (keeps.size ▸ known) stays other known' bound
        own.of_state_waiting.1 own'.of_state_waiting.1 ?_ ?_ ?_ free
      all_goals rw [charged]
      all_goals rfl
    | @complete k known' bound converts free =>
      obtain ⟨own, -, first⟩ := early known' (by rw [converts]; decide)
      rw [Lock.Seated, first, converts] at own
      obtain ⟨old, held, -⟩ := own.of_state_converting
      refine sofar.complete ?_ known' (held ▸ Option.some_ne_none old)
      rintro rfl
      rw [Ledger.complete, lock_seat_self, converts] at same
      cases same

/-! ### What is done at once -/

theorem Coherent.held_of_granted (c : b.Coherent) (known : k < b.size)
    (granted : (b.lock k).state = .granted) : (b.lock k).grantedMode ≠ none := by
  have own := c.seated k known
  rw [Lock.Seated, granted] at own
  exact fun none => Option.some_ne_none _ (own.of_state_granted.1.symm.trans none)

/-- What is done at once to a lock that has not been granted by it and is not on its way out. -/
inductive Course (l : LockId) (b b' : Ledger) : Prop where
  | stays (tallied : Tallied l b b')
  /-- It has been bound to another resource, or has come to wait. -/
  | moves (new : (b.lock l).state = .new) (same : (b'.lock l).bypassed = (b.lock l).bypassed)
  | asks (granted : (b.lock l).state = .granted) (none : (b'.lock l).bypassed = 0)

/-- Nobody is granted anything, and another lock than `l` changes. -/
theorem Course.set {x : Lock} (other : l ≠ k)
    (nothing : (b.lock k).grantedMode = none → x.grantedMode = none) : Course l b (b.set k x) :=
  .stays (.of_barren (.set nothing) (lock_set_of_ne _ _ other))

theorem Course.seat {x : Lock} (q : Queues) (other : l ≠ k)
    (nothing : (b.lock k).grantedMode = none → x.grantedMode = none) : Course l b (b.seat k x q) :=
  .stays (.of_barren (.seat q nothing) (lock_seat_of_ne _ _ _ other))

/-- A lock that is granted as it comes to the queues passes over those that wait there. -/
theorem Coherent.tallied_accept (c : b.Coherent) (known : l < b.size) (known' : k < b.size)
    (new : (b.lock k).state = .new) (bound : (b.lock k).resource = r)
    (entered : b' = b.set k ((b.lock k).enter .enqueued))
    (free : ¬b'.Blocked r ⟨(b.lock k).claim, (b.lock k).requestedMode⟩)
    (stays : (((b'.charge r (b.lock k).claim (b.lock k).requestedMode).accept k).lock l).state.leaving =
      false)
    (still : (((b'.charge r (b.lock k).claim (b.lock k).requestedMode).accept k).lock l).state ≠
      .granted) :
    Tallied l b ((b'.charge r (b.lock k).claim (b.lock k).requestedMode).accept k) := by
  subst entered
  have self := b.lock_set_self k ((b.lock k).enter .enqueued)
  have other : l ≠ k := by
    rintro rfl
    rw [Ledger.accept, lock_seat_self] at still
    exact still rfl
  have entry : (b.set k ((b.lock k).enter .enqueued)).lock l = b.lock l :=
    lock_set_of_ne _ _ other
  have same := recounted_charge (b.set k ((b.lock k).enter .enqueued)) r (b.lock k).claim
    (b.lock k).requestedMode
  have own := c.seated k known'
  rw [Lock.Seated, new] at own
  have granted := Tallied.grant (k := k) (r := r) (b := b.set k ((b.lock k).enter .enqueued))
    (.refl l _) (c.enqueue known' new) rfl known
  rw [Ledger.accept, lock_seat_of_ne _ _ _ other, (same l).state] at stays
  obtain ⟨m, charged⟩ := same k
  rw [self] at granted charged
  refine .head entry rfl (fun j _ => ?_)
    (granted stays other.symm known' bound own.of_new.1 own.of_new.1 ?_ ?_ ?_ free)
  · by_cases here : j = k
    · rw [here, self]
      rfl
    · rw [lock_set_of_ne _ _ here]
  all_goals rw [charged]
  all_goals rfl

/-- A lock that changes its mode at once is not granted for the first time, but others may be after it. -/
theorem Coherent.tallied_switch (c : b.Coherent) (known : l < b.size) (known' : k < b.size)
    {mode : Mode} (granted : (b.lock k).state = .granted) (free : b.opposed k mode = false)
    (awards : Awards r (b.switch k mode) b') (stays : (b'.lock l).state.leaving = false)
    (still : (b'.lock l).state ≠ .granted) : Tallied l b b' := by
  have other : l ≠ k := by
    rintro rfl
    rw [(awards.recounted still).state, Ledger.switch, lock_seat_self] at still
    exact still rfl
  have same : (b.switch k mode).lock l = b.lock l := lock_seat_of_ne _ _ _ other
  have after := awards.tallied (c.switch known' granted free) known stays still
  have held := c.held_of_granted known' granted
  refine .head same rfl (fun j _ => ?_) after
  by_cases here : j = k
  · rw [here, Ledger.switch, lock_seat_self]
    exact iff_of_false held (Option.some_ne_none mode)
  · rw [Ledger.switch, lock_seat_of_ne _ _ _ here]

/-- Those who are granted when a lock leaves pass over those that go on waiting. -/
theorem Coherent.tallied_leave (c : b.Coherent) (known : l < b.size) (known' : k < b.size)
    (awards : Awards r (b.leave k) b')
    (stays : ((b'.set k { b'.lock k with retired := true }).lock l).state.leaving = false)
    (still : ((b'.set k { b'.lock k with retired := true }).lock l).state ≠ .granted) :
    Tallied l b (b'.set k { b'.lock k with retired := true }) := by
  have keeps := Keeps.grants awards.grants
  have gone := keeps.left_of_leave.2.2
  have other : l ≠ k := by
    rintro rfl
    rw [lock_set_self, gone] at stays
    cases stays
  rw [lock_set_of_ne _ _ other] at stays still
  have same : (b.leave k).lock l = b.lock l := lock_seat_of_ne _ _ _ other
  have after := awards.tallied (c.leave known') known stays still
  refine .tail (.head same rfl (fun j holds => ?_) after) rfl (lock_set_of_ne _ _ other) fun j => ?_
  · by_cases here : j = k
    · have own := ((c.leave known').steps awards.grants.steps).seated k (keeps.size.symm ▸ known')
      rw [Lock.Seated, gone] at own
      exact absurd own.of_canceled.1 (here ▸ holds)
    · rw [Ledger.leave, lock_seat_of_ne _ _ _ here]
  · by_cases here : j = k
    · rw [here, lock_set_self]
      exact ⟨rfl, rfl, rfl⟩
    · rw [lock_set_of_ne _ _ here]
      exact ⟨rfl, rfl, rfl⟩

/-- Whoever comes to wait is granted nothing. -/
theorem Course.wait (new : (b.lock k).state = .new) :
    Course l b ((b.set k ((b.lock k).enter .enqueued)).wait k) := by
  by_cases here : l = k
  · subst here
    exact .moves new (by rw [Ledger.wait, lock_seat_self, lock_set_self]; rfl)
  · have entry : Barren b (b.set k ((b.lock k).enter .enqueued)) := .set id
    have waits : Barren _ ((b.set k ((b.lock k).enter .enqueued)).wait k) := .seat _ id
    refine .stays (.of_barren (fun j none => waits j (entry j none)) ?_)
    rw [Ledger.wait, lock_seat_of_ne _ _ _ here, lock_set_of_ne _ _ here]

theorem Shift.course {brought : Option LockId} (c : b.Coherent) (known : l < b.size)
    (shift : Shift b brought b') (stays : (b'.lock l).state.leaving = false)
    (still : (b'.lock l).state ≠ .granted) : Course l b b' := by
  cases shift with
  | still _ => exact .stays (.refl l b)
  | register _ _ nothing _ =>
    exact .stays (.of_barren (.extend nothing) (Function.update_of_ne (Nat.ne_of_lt known) ..))
  | @rebind k _ new _ _ =>
    by_cases here : l = k
    · subst here
      exact .moves new (by rw [lock_set_self])
    · exact .set here id
  | accept known' new bound entered free _ =>
    exact .stays (c.tallied_accept known known' new bound entered free stays still)
  | wait _ new => exact .wait new
  | @pend k _ _ granted _ =>
    by_cases here : l = k
    · subst here
      exact .asks granted (by rw [Ledger.pend, lock_seat_self]; rfl)
    · exact .seat _ here id
  | switch known' granted free awards =>
    exact .stays (c.tallied_switch known known' granted free awards stays still)
  | @mark k _ _ =>
    refine .set ?_ id
    rintro rfl
    rw [lock_set_self] at stays
    cases stays
  | leave known' _ awards => exact .stays (c.tallied_leave known known' awards stays still)

/-! ### Granted once -/

/-- The lock has been granted or is on its way out, and is not granted for the first time any more. -/
def Started (b : Ledger) (k : LockId) : Prop :=
  k < b.size ∧ ((b.lock k).grantedMode ≠ none ∨ (b.lock k).state.leaving = true)

theorem held_seat {x : Lock} {q : Queues} (held : (b.lock k).grantedMode ≠ none)
    (mine : k = l → x.grantedMode ≠ none ∨ x.state.leaving = true) :
    ((b.seat l x q).lock k).grantedMode ≠ none ∨ ((b.seat l x q).lock k).state.leaving = true := by
  by_cases here : k = l
  · rw [here, lock_seat_self]
    exact mine here
  · rw [lock_seat_of_ne _ _ _ here]
    exact .inl held

theorem held_set {x : Lock} (held : (b.lock k).grantedMode ≠ none)
    (mine : k = l → x.grantedMode ≠ none ∨ x.state.leaving = true) :
    ((b.set l x).lock k).grantedMode ≠ none ∨ ((b.set l x).lock k).state.leaving = true := by
  rw [set_eq_seat]
  exact held_seat held mine

/-- What a lock has it gives back only when it leaves. -/
theorem Step.held (done : Step b b') (known : k < b.size) (held : (b.lock k).grantedMode ≠ none) :
    (b'.lock k).grantedMode ≠ none ∨ (b'.lock k).state.leaving = true := by
  cases done with
  | grant done =>
    cases done with
    | pass _ _ => exact held_set held fun same => .inl (same ▸ held)
    | serve _ _ _ _ => exact held_seat held fun _ => .inl (Option.some_ne_none _)
    | complete _ _ _ _ => exact held_seat held fun _ => .inl (Option.some_ne_none _)
  | register _ _ _ _ =>
    rw [show (b.extend _).lock k = b.lock k from Function.update_of_ne (Nat.ne_of_lt known) ..]
    exact .inl held
  | rebind _ _ _ _ => exact held_set held fun same => .inl (same ▸ held)
  | enqueue _ _ => exact held_set held fun same => .inl (same ▸ held)
  | accept _ _ _ => exact held_seat held fun _ => .inl (Option.some_ne_none _)
  | wait _ _ => exact held_seat held fun same => .inl (same ▸ held)
  | pend _ _ _ => exact held_seat held fun same => .inl (same ▸ held)
  | switch _ _ _ => exact held_seat held fun _ => .inl (Option.some_ne_none _)
  | mark _ _ => exact held_set held fun _ => .inr rfl
  | leave _ _ => exact held_seat held fun _ => .inr rfl
  | retire _ => exact held_set held fun same => .inl (same ▸ held)

namespace Started

theorem step (started : b.Started k) (c : b.Coherent) (done : Step b b') : b'.Started k := by
  obtain ⟨known, held | leaving⟩ := started
  · exact ⟨known.trans_le done.grown, done.held known held⟩
  · exact ⟨known.trans_le done.grown, .inr (c.fades_step done known leaving).leaving⟩

theorem steps (started : b.Started k) (c : b.Coherent) (run : Steps b b') : b'.Started k := by
  induction run with
  | refl => exact started
  | tail before last ih => exact ih.step (c.steps before) last

theorem of_outruns (outruns : k ∈ b.outrunners b' l) : b'.Started k := by
  obtain ⟨known, -, -, -, granted⟩ := Finset.mem_filter.mp outruns
  refine ⟨Finset.mem_range.mp known, .inl fun none => ?_⟩
  rw [none] at granted
  cases granted

/-- Whoever is on its way out gets nothing more, so nobody is granted for the first time twice. -/
theorem not_outruns (started : b.Started k) (c : b.Coherent) (run : Steps b b') :
    ¬b.Outruns b' l k := by
  rintro ⟨-, -, none, granted⟩
  obtain ⟨known, held⟩ := started
  have leaving := held.resolve_left fun held => held none
  have known' := known.trans_le run.grown
  have empty : ∀ r, ((b'.queues r).of k).granted = [] := by
    intro r
    have before : ((b.queues r).of k).granted = [] := by
      by_cases here : r = (b.lock k).resource
      · rw [here]
        exact (c.seated k known).held_eq_none_iff.mp none
      · rw [c.elsewhere k known r here]
    rcases (c.fades run known leaving).entries r with same | gone
    · rw [same]
      exact before
    · rw [gone]
  rw [((c.steps run).seated k known').held_eq_none_iff.mpr (empty _)] at granted
  cases granted

end Started

/-! ### What the count says -/

/-- Those who are known to have been granted past `l`, after a further change: a lock that is in another
state then has not been passed over in it. -/
def onward (b b' : Ledger) (l : LockId) (past : Finset LockId) : Finset LockId :=
  if (b'.lock l).state = (b.lock l).state then past ∪ b.outrunners b' l else ∅

/-- As long as `l` waits, it has been passed over by those in `past`, and by no more than the limit. -/
structure Booked (limit : Option UInt32) (l : LockId) (past : Finset LockId) (b : Ledger) : Prop where
  started : ∀ k ∈ past, b.Started k
  new : (b.lock l).state = .new → (b.lock l).bypassed = 0
  counted : (b.lock l).Pends → (b.lock l).bypassed = min past.card Lock.bypassCap
  limited : ∀ n, limit = some n → (b.lock l).Pends → past.card ≤ n.toNat

namespace Booked

variable {limit : Option UInt32} {past : Finset LockId}

/-- A lock that does not wait. -/
theorem of_idle (started : ∀ k ∈ past, b.Started k)
    (new : (b.lock l).state = .new → (b.lock l).bypassed = 0) (idle : ¬(b.lock l).Pends) :
    Booked limit l past b :=
  ⟨started, new, fun pends => absurd pends idle, fun _ _ pends => absurd pends idle⟩

/-- A lock that has not been passed over. -/
theorem of_none (started : ∀ k ∈ past, b.Started k) (none : (b.lock l).bypassed = 0)
    (nobody : (b.lock l).Pends → past = ∅) : Booked limit l past b := by
  refine ⟨started, fun _ => none, fun pends => ?_, fun n _ pends => ?_⟩
  · rw [none, nobody pends, Finset.card_empty, Nat.zero_min]
  · rw [nobody pends, Finset.card_empty]
    exact Nat.zero_le _

theorem started_onward (booked : Booked limit l past b) (c : b.Coherent) (run : Steps b b') :
    ∀ k ∈ b.onward b' l past, b'.Started k := by
  unfold onward
  split
  · intro k inside
    rcases Finset.mem_union.mp inside with old | new
    · exact (booked.started k old).steps c run
    · exact .of_outruns new
  · exact nofun

theorem tallied (booked : Booked limit l past b) (c : b.Coherent) (run : Steps b b')
    (limited : b.config.bypassLimit = limit) (tallied : Tallied l b b') :
    Booked limit l (b.onward b' l past) b' := by
  have started := booked.started_onward c run
  have still := tallied.recounted.state
  have lock := tallied.lock
  refine ⟨started, fun new => ?_, fun pends => ?_, fun n some pends => ?_⟩
  · have idle : ¬(b.lock l).Pends := by simp [Lock.Pends, ← still, new]
    rw [lock, outrunners_of_not_pends idle]
    exact booked.new (still ▸ new)
  all_goals
    rw [Lock.Pends, still] at pends
    have counted := booked.counted pends
    have apart : Disjoint past (b.outrunners b' l) := by
      refine Finset.disjoint_left.mpr fun k old new => ?_
      exact (booked.started k old).not_outruns c run (Finset.mem_filter.mp new).2
    rw [onward, if_pos still, Finset.card_union_of_disjoint apart]
  · rw [lock, Lock.bypassed_iterate_min _ (counted ▸ Nat.min_le_right _ _), counted]
    omega
  · have capped := tallied.capped n (limited.trans some)
    have before := booked.limited n some pends
    have small := Lock.limit_le_bypassCap n
    omega

theorem shift {brought : Option LockId} (booked : Booked limit l past b) (c : b.Coherent)
    (known : l < b.size) (limited : b.config.bypassLimit = limit) (shift : Shift b brought b') :
    Booked limit l (b.onward b' l past) b' := by
  have started := booked.started_onward c shift.steps
  by_cases idle : (b'.lock l).state ≠ .new ∧ ¬(b'.lock l).Pends
  · exact .of_idle started (fun new => absurd new idle.1) idle.2
  · have state : (b'.lock l).state = .new ∨ (b'.lock l).Pends := by
      by_contra neither
      exact idle (not_or.mp neither)
    have course := shift.course c known (by
      rcases state with new | waits | converts <;> simp [*, LockState.leaving]) (by
      rcases state with new | waits | converts <;> simp [*])
    have changed {before : LockState} (then' : (b.lock l).state = before)
        (apart : before ≠ .waiting ∧ before ≠ .converting) (pends : (b'.lock l).Pends) :
        b.onward b' l past = ∅ := by
      refine if_neg fun same => ?_
      rw [Lock.Pends, same, then'] at pends
      exact pends.elim apart.1 apart.2
    cases course with
    | stays tallied => exact booked.tallied c shift.steps limited tallied
    | moves new same =>
      exact .of_none started (same.trans (booked.new new)) (changed new (by decide))
    | asks granted none => exact .of_none started none (changed granted (by decide))

end Booked

end Ledger
end LockManager
