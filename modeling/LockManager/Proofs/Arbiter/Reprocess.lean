import LockManager.Proofs.Arbiter

set_option autoImplicit false

/-!
Looking at a resource again settles it. One pass over the conversions and one over the waiters are
enough, since what is granted on the way never gives an opening to anyone passed by before.
-/

namespace LockManager
namespace Ledger

/-- The conversions among `es` are still to be looked at, and all others are kept. -/
structure Converting (b : Ledger) (r : ResourceId) (es : List Entry) : Prop where
  coherent : b.Coherent
  pending : ∀ e ∈ es, e ∈ (b.queues r).converting
  distinct : es.Pairwise (·.claim.id ≠ ·.claim.id)
  decided : ∀ x ∈ (b.queues r).converting, x ∈ es ∨ b.leaves x = true ∨ (b.queues r).Kept x

/-- The waiters among `es` are still to be looked at, and all others have come before and cannot be
granted. -/
structure Serving (b : Ledger) (r : ResourceId) (es : List Entry) : Prop where
  coherent : b.Coherent
  waiting : ∀ e ∈ es, e ∈ (b.queues r).waiting
  ordered : es.Pairwise (·.claim.id < ·.claim.id)
  decided : ∀ x ∈ (b.queues r).waiting,
    x ∈ es ∨ (∀ e ∈ es, x.claim.id < e.claim.id) ∧ (b.leaves x = true ∨ b.Blocked r x)
  conversions : ∀ x ∈ (b.queues r).converting, b.leaves x = true ∨ (b.queues r).Kept x

variable {b : Ledger} {r : ResourceId} {e : Entry} {es : List Entry}

namespace Converting

theorem skip (left : b.Converting r (e :: es)) (kept : b.leaves e = true ∨ (b.queues r).Opposed e) :
    b.Converting r es := by
  refine ⟨left.coherent, fun x later => left.pending x (List.mem_cons_of_mem e later),
    (List.pairwise_cons.mp left.distinct).2, fun x inside => ?_⟩
  rcases left.decided x inside with member | decided
  · rcases List.mem_cons.mp member with rfl | later
    · exact .inr (kept.imp_right .inl)
    · exact .inl later
  · exact .inr decided

theorem complete (left : b.Converting r (e :: es)) (stays : b.leaves e = false)
    (free : b.opposed e.claim.id e.mode = false) :
    Award r b (b.complete e.claim.id) ∧ (b.complete e.claim.id).Converting r es := by
  have c := left.coherent
  have inside := left.pending e List.mem_cons_self
  obtain ⟨state, same, -⟩ := c.of_converting inside stays
  have place : e ∈ (b.queues r).entries := Queues.mem_entries.mpr (.inl (.inr inside))
  have known := c.known r e place
  have bound := c.bound place
  have mode : (b.lock e.claim.id).requestedMode = e.mode := (congrArg Entry.mode same).symm
  rw [← mode] at free
  have now : ((b.complete e.claim.id).queues r).converting =
      (b.queues r).converting.filter (·.claim.id != e.claim.id) := by
    rw [← bound]
    exact congrArg Queues.converting (b.queues_seat_self ..)
  have apart := List.pairwise_cons.mp left.distinct
  refine ⟨.complete known bound state free, c.complete known state free, ?_, apart.2, ?_⟩
  · intro x later
    rw [now]
    exact List.mem_filter.mpr ⟨left.pending x (List.mem_cons_of_mem e later),
      bne_iff_ne.mpr (apart.1 x later).symm⟩
  · intro x member
    rw [now] at member
    obtain ⟨old, other⟩ := List.mem_filter.mp member
    have other : x.claim.id ≠ e.claim.id := bne_iff_ne.mp other
    rcases left.decided x old with next | decided
    · rcases List.mem_cons.mp next with rfl | later
      · exact absurd rfl other
      · exact .inl later
    · refine .inr (decided.imp ?_ (c.kept_complete inside stays other.symm))
      intro gone
      rw [leaves, Ledger.complete, lock_seat_of_ne _ _ _ other]
      exact gone

end Converting

namespace Serving

theorem skip (left : b.Serving r (e :: es)) (blocked : b.leaves e = true ∨ b.Blocked r e) :
    b.Serving r es := by
  have ordered := List.pairwise_cons.mp left.ordered
  refine ⟨left.coherent, fun x later => left.waiting x (List.mem_cons_of_mem e later),
    ordered.2, ?_, left.conversions⟩
  intro x inside
  rcases left.decided x inside with member | ⟨before, decided⟩
  · rcases List.mem_cons.mp member with rfl | later
    · exact .inr ⟨ordered.1, blocked⟩
    · exact .inl later
  · exact .inr ⟨fun y later => before y (List.mem_cons_of_mem e later), decided⟩

theorem pass {b' : Ledger} (left : b.Serving r es) (passed : Passes r b b') : b'.Serving r es := by
  have leaves : ∀ x, b'.leaves x = b.leaves x := by
    intro x
    obtain ⟨n, same⟩ := passed.lock x.claim.id
    rw [Ledger.leaves, Ledger.leaves, same]
  refine ⟨left.coherent.steps passed.grants.steps, ?_, left.ordered, ?_, ?_⟩
  · rw [passed.queues]
    exact left.waiting
  · rw [passed.queues]
    intro x inside
    rw [leaves]
    exact (left.decided x inside).imp_right (And.imp_right (Or.imp_right passed.blocked))
  · rw [passed.queues]
    intro x inside
    rw [leaves]
    exact left.conversions x inside

/-- Someone who has been passed over may be served. -/
theorem granted (left : b.Serving r (e :: es)) (stays : b.leaves e = false)
    (free : b.opposed e.claim.id e.mode = false) : (b.serve e.claim.id).Serving r es := by
  have c := left.coherent
  have inside := left.waiting e List.mem_cons_self
  obtain ⟨state, same⟩ := c.of_waiting inside stays
  have place : e ∈ (b.queues r).entries := Queues.mem_entries.mpr (.inr inside)
  have known := c.known r e place
  have bound := c.bound place
  have mode : (b.lock e.claim.id).requestedMode = e.mode := (congrArg Entry.mode same).symm
  rw [← mode] at free
  have now : (b.serve e.claim.id).queues r =
      ((b.queues r).dropWaiting e.claim.id).addGranted
        ⟨(b.lock e.claim.id).claim, (b.lock e.claim.id).requestedMode⟩ := by
    rw [← bound]
    exact b.queues_seat_self ..
  have others : ∀ x : Entry, x.claim.id ≠ e.claim.id →
      (b.serve e.claim.id).leaves x = b.leaves x := by
    intro x other
    rw [leaves, leaves, Ledger.serve, lock_seat_of_ne _ _ _ other]
  have ordered := List.pairwise_cons.mp left.ordered
  refine ⟨c.serve known state free, ?_, ordered.2, ?_, ?_⟩
  · intro x later
    rw [now]
    exact List.mem_filter.mpr ⟨left.waiting x (List.mem_cons_of_mem e later),
      bne_iff_ne.mpr (Nat.ne_of_gt (ordered.1 x later))⟩
  · intro x member
    rw [now] at member
    obtain ⟨old, other⟩ := List.mem_filter.mp member
    have other : x.claim.id ≠ e.claim.id := bne_iff_ne.mp other
    rcases left.decided x old with next | ⟨before, decided⟩
    · rcases List.mem_cons.mp next with rfl | later
      · exact absurd rfl other
      · exact .inl later
    · refine .inr ⟨fun y later => before y (List.mem_cons_of_mem e later), ?_⟩
      rw [others x other]
      apply decided.imp_right
      intro blocked
      rw [← bound] at blocked ⊢
      exact c.blocked_serve state (before e List.mem_cons_self) blocked
  · intro x member
    rw [now] at member ⊢
    rw [others x (c.ne_of_waiting state member)]
    exact (left.conversions x member).imp_right fun kept =>
      kept.mono (List.subset_append_left _ _)

theorem serve (left : b.Serving r (e :: es)) (stays : b.leaves e = false) (free : ¬b.Blocked r e)
    (passed : Passes r b (b.charge r e.claim e.mode)) :
    Award r b ((b.charge r e.claim e.mode).serve e.claim.id) ∧
      ((b.charge r e.claim e.mode).serve e.claim.id).Serving r es := by
  have c := left.coherent
  have inside := left.waiting e List.mem_cons_self
  obtain ⟨state, same⟩ := c.of_waiting inside stays
  have place : e ∈ (b.queues r).entries := Queues.mem_entries.mpr (.inr inside)
  have bound := c.bound place
  have claim : (b.lock e.claim.id).claim = e.claim := (congrArg Entry.claim same).symm
  have mode : (b.lock e.claim.id).requestedMode = e.mode := (congrArg Entry.mode same).symm
  have award := Award.serve (c.known r e place) bound state (by rwa [claim, mode])
    (by rwa [claim, mode])
  rw [claim, mode] at award
  refine ⟨award, (left.pass passed).granted ?_ ?_⟩
  · obtain ⟨n, same⟩ := passed.lock e.claim.id
    rw [Ledger.leaves, same]
    exact stays
  · rw [passed.opposed]
    apply not_opposed_of_not_blocked bound
    rwa [claim]

end Serving

/-! ### Beginning -/

theorem Coherent.converting (c : b.Coherent) (r : ResourceId) :
    b.Converting r (b.queues r).converting :=
  ⟨c, fun _ inside => inside, c.distinct_converting r, fun _ inside => .inl inside⟩

theorem Converting.serving (done : b.Converting r []) : b.Serving r (b.queues r).waiting :=
  ⟨done.coherent, fun _ inside => inside, done.coherent.ordered r, fun _ inside => .inl inside,
    fun x inside => (done.decided x inside).resolve_left List.not_mem_nil⟩

theorem Serving.settled (done : b.Serving r []) : b.Settled r :=
  ⟨done.conversions, fun x inside => ((done.decided x inside).resolve_left List.not_mem_nil).2⟩

end Ledger

namespace Arbiter

variable {a : Arbiter} {r : ResourceId} {others : ResourceId → Queues}

/-- A conversion is left alone if its lock is leaving or something stands against it, and completed
otherwise. -/
theorem retryConversion_cases (c : (a.ledger r others).Coherent) {e : Entry}
    (inside : e ∈ a.queues.converting) :
    ((a.ledger r others).leaves e = true ∨ a.queues.Opposed e) ∧ a.retryConversion e = a ∨
      (a.ledger r others).leaves e = false ∧
        (a.ledger r others).opposed e.claim.id e.mode = false ∧
        (a.retryConversion e).ledger r others = (a.ledger r others).complete e.claim.id := by
  have place : e ∈ ((a.ledger r others).queues r).converting := by
    rw [ledger_queues]
    exact inside
  unfold retryConversion
  cases gone : (a.lock e.claim.id).state.leaving with
  | true => exact .inl ⟨.inl gone, rfl⟩
  | false =>
    cases against : a.opposed e.claim e.mode with
    | true => exact .inl ⟨.inr (List.any_eq_true.mp against), rfl⟩
    | false =>
      obtain ⟨state, same, -⟩ := c.of_converting place gone
      have entry : e ∈ ((a.ledger r others).queues r).entries :=
        Queues.mem_entries.mpr (.inl (.inr place))
      have bound : (a.lock e.claim.id).resource = r := c.bound entry
      have claim : (a.lock e.claim.id).claim = e.claim := (congrArg Entry.claim same).symm
      have mode : ((a.ledger r others).lock e.claim.id).requestedMode = e.mode :=
        (congrArg Entry.mode same).symm
      refine .inr ⟨gone, ?_, ?_⟩
      · rw [ledger_opposed bound, claim]
        exact against
      · have edge : (a.lock e.claim.id).state.allows .granted = true := by
          rw [show (a.lock e.claim.id).state = .converting from state]
          rfl
        obtain ⟨a', converted, after⟩ := ledger_convert others
          (·.dropConverting e.claim.id) e.claim (c.known r e entry) bound e.mode true edge
        simp only [Bool.or_self, Bool.false_eq_true, if_false, converted, Option.getD_some, after]
        rw [Ledger.complete, mode]

/-- A waiter is left alone if its lock is leaving or it is blocked. Otherwise it is served, and that
is counted on whoever it passes over. -/
theorem retryWaiter_cases (c : (a.ledger r others).Coherent) {e : Entry}
    (inside : e ∈ a.queues.waiting) :
    ((a.ledger r others).leaves e = true ∨ (a.ledger r others).Blocked r e) ∧
        a.retryWaiter e = a ∨
      (a.ledger r others).leaves e = false ∧ ¬(a.ledger r others).Blocked r e ∧
        Ledger.Passes r (a.ledger r others) ((a.ledger r others).charge r e.claim e.mode) ∧
        (a.retryWaiter e).ledger r others =
          ((a.ledger r others).charge r e.claim e.mode).serve e.claim.id := by
  have place : e ∈ ((a.ledger r others).queues r).waiting := by
    rw [ledger_queues]
    exact inside
  have ordered : a.queues.Ordered := a.ledger_queues r others ▸ c.ordered r
  unfold retryWaiter
  cases gone : (a.lock e.claim.id).state.leaving with
  | true => exact .inl ⟨.inl gone, rfl⟩
  | false =>
    cases may : a.grantable e.claim e.mode with
    | false => exact .inl ⟨.inr ((grantable_eq_false_iff ordered).mp may), rfl⟩
    | true =>
      obtain ⟨state, same⟩ := c.of_waiting place gone
      have entry : e ∈ ((a.ledger r others).queues r).entries :=
        Queues.mem_entries.mpr (.inr place)
      have known := c.known r e entry
      have bound : (a.lock e.claim.id).resource = r := c.bound entry
      have claim : (a.lock e.claim.id).claim = e.claim := (congrArg Entry.claim same).symm
      have mode : (a.lock e.claim.id).requestedMode = e.mode := (congrArg Entry.mode same).symm
      have passed := passes_recordBypass c e.claim e.mode
      have charged := ledger_recordBypass c e.claim e.mode
      have edge : (a.lock e.claim.id).state.allows .granted = true := by
        rw [show (a.lock e.claim.id).state = .waiting from state]
        rfl
      have granted := ledger_grant_of_passes (·.dropWaiting e.claim.id) passed known
        (congrArg Claim.id claim) bound true edge
      rw [claim, mode] at granted
      refine .inr ⟨gone, fun blocked => ?_, charged ▸ passed, ?_⟩
      · rw [(grantable_eq_false_iff ordered).mpr blocked] at may
        cases may
      · simp only [Bool.not_true, Bool.or_self, Bool.false_eq_true, if_false]
        rw [recordBypass_dropWaiting ordered, granted, ← charged, Ledger.serve]

/-! ### The two passes -/

theorem convert_all (es : List Entry) (a : Arbiter) (left : (a.ledger r others).Converting r es) :
    Ledger.Awards r (a.ledger r others) ((es.foldl retryConversion a).ledger r others) ∧
      ((es.foldl retryConversion a).ledger r others).Converting r [] := by
  induction es generalizing a with
  | nil => exact ⟨.refl, left⟩
  | cons e es ih =>
    have inside := left.pending e List.mem_cons_self
    rw [ledger_queues] at inside
    rw [List.foldl_cons]
    rcases retryConversion_cases left.coherent inside with ⟨kept, same⟩ | ⟨stays, free, done⟩
    · rw [same]
      exact ih a (left.skip (by rwa [ledger_queues]))
    · obtain ⟨award, rest⟩ := left.complete stays free
      rw [← done] at award rest
      obtain ⟨awards, end'⟩ := ih _ rest
      exact ⟨.head award awards, end'⟩

theorem serve_all (es : List Entry) (a : Arbiter) (left : (a.ledger r others).Serving r es) :
    Ledger.Awards r (a.ledger r others) ((es.foldl retryWaiter a).ledger r others) ∧
      ((es.foldl retryWaiter a).ledger r others).Serving r [] := by
  induction es generalizing a with
  | nil => exact ⟨.refl, left⟩
  | cons e es ih =>
    have inside := left.waiting e List.mem_cons_self
    rw [ledger_queues] at inside
    rw [List.foldl_cons]
    rcases retryWaiter_cases left.coherent inside with ⟨blocked, same⟩ |
      ⟨stays, free, passed, done⟩
    · rw [same]
      exact ih a (left.skip blocked)
    · obtain ⟨award, rest⟩ := left.serve stays free passed
      rw [← done] at award rest
      obtain ⟨awards, end'⟩ := ih _ rest
      exact ⟨.head award awards, end'⟩

variable (others) in
/-- Looking at a resource again gives locks what they wait for, and leaves nobody who is to be given
anything. -/
theorem reprocess_settles (c : (a.ledger r others).Coherent) :
    Ledger.Awards r (a.ledger r others) (a.reprocess.ledger r others) ∧
      (a.reprocess.ledger r others).Settled r := by
  have start := c.converting r
  rw [ledger_queues] at start
  obtain ⟨converted, conversions⟩ := convert_all a.queues.converting a start
  have next := conversions.serving
  rw [ledger_queues] at next
  obtain ⟨served, waiters⟩ := serve_all _ _ next
  have asked := ledger_foldl r others (f := askFor) (fun a e => ledger_askFor r others a e)
  unfold reprocess
  rw [asked]
  exact ⟨converted.trans served, waiters.settled⟩

end Arbiter
end LockManager
