import LockManager.Proofs.Ledger.Overtaking

set_option autoImplicit false

/-!
Who is granted in turn. Of two waiters for the same mode whose parts meet, the one that arrived first
keeps the other back as long as it stays, so whoever is granted leaves behind only such earlier waiters as
are on their way out.
-/

namespace LockManager
namespace Ledger

/-- `e` is for the mode that the lock `l` asks for and meets it, and came before it. -/
structure Precedes (b : Ledger) (e : Entry) (l : LockId) : Prop where
  earlier : e.claim.id < l
  mode : e.mode = (b.lock l).requestedMode
  meets : e.claim.policy.overlaps (b.lock l).claim.policy = true

instance (b : Ledger) (e : Entry) (l : LockId) : Decidable (b.Precedes e l) :=
  decidable_of_iff (e.claim.id < l ∧ e.mode = (b.lock l).requestedMode ∧
      e.claim.policy.overlaps (b.lock l).claim.policy = true)
    ⟨fun ⟨earlier, mode, meets⟩ => ⟨earlier, mode, meets⟩,
      fun ⟨earlier, mode, meets⟩ => ⟨earlier, mode, meets⟩⟩

/-- The lock `l` has been granted for the first time. -/
def Served (b b' : Ledger) (l : LockId) : Prop :=
  (b.lock l).grantedMode = none ∧ (b'.lock l).grantedMode ≠ none

/-- Whoever has been granted leaves behind only such earlier waiters as are on their way out. -/
def InTurn (b b' : Ledger) : Prop :=
  ∀ l, Served b b' l → ∀ e ∈ (b'.home l).waiting, b'.Precedes e l → b'.leaves e = true

variable {b b' b'' : Ledger} {r : ResourceId} {k l : LockId}

/-! ### Changes that grant nobody anything -/

theorem Barren.inTurn (barren : Barren b b') : InTurn b b' :=
  fun l served => absurd (barren l served.1) served.2

namespace InTurn

theorem refl (b : Ledger) : InTurn b b := Barren.inTurn fun _ => id

theorem head (barren : Barren b b') (after : InTurn b' b'') : InTurn b b'' :=
  fun l served => after l ⟨barren l served.1, served.2⟩

/-- A lock that is done with may be put away afterwards. -/
theorem retire (before : InTurn b b') (k : LockId) :
    InTurn b (b'.set k { b'.lock k with retired := true }) := by
  have lock (j : LockId) : ∃ gone, (b'.set k { b'.lock k with retired := true }).lock j =
      { b'.lock j with retired := gone } := by
    by_cases here : j = k
    · subst here
      exact ⟨true, lock_set_self ..⟩
    · exact ⟨(b'.lock j).retired, lock_set_of_ne _ _ here⟩
  rintro l ⟨none, holds⟩ e inside ⟨earlier, mode, meets⟩
  obtain ⟨gone, same⟩ := lock l
  rw [same] at holds mode meets
  rw [home, same] at inside
  obtain ⟨gone', same'⟩ := lock e.claim.id
  rw [leaves, same']
  exact before l ⟨none, holds⟩ e inside ⟨earlier, mode, meets⟩

end InTurn

/-! ### A grant -/

theorem home_seat (b : Ledger) {x : Lock} (q : Queues) (bound : x.resource = (b.lock l).resource) :
    (b.seat l x q).home l = q := by
  rw [home, lock_seat_self, bound]
  exact b.queues_seat_self l x q

/-- Whoever came before a lock that can be granted, and wants the same, is on its way out. -/
theorem leaves_of_not_blocked {claim : Claim} {mode : Mode} (free : ¬b.Blocked r ⟨claim, mode⟩)
    {e : Entry} (inside : e ∈ (b.queues r).waiting) (earlier : e.claim.id < claim.id)
    (same : e.mode = mode) (meets : e.claim.policy.overlaps claim.policy = true) :
    b.leaves e = true := by
  apply Bool.eq_true_of_not_eq_false
  intro stays
  exact free (.inr (.inr ⟨e, inside, earlier, meets, .inl ⟨same, stays⟩⟩))

/-- Someone is given what it asks for, past those who are charged with it. -/
theorem inTurn_seat (c : b.Coherent) (known : k < b.size)
    (free : ¬b.Blocked r ⟨(b.lock k).claim, (b.lock k).requestedMode⟩) {x : Lock} {q : Queues}
    (claim : x.claim = (b.lock k).claim) (wanted : x.requestedMode = (b.lock k).requestedMode)
    (resource : x.resource = (b.lock k).resource) (part : q.waiting ⊆ (b.queues r).waiting) :
    InTurn b ((b.charge r (b.lock k).claim (b.lock k).requestedMode).seat k x q) := by
  rintro l ⟨none, holds⟩ e inside ⟨earlier, mode, meets⟩
  obtain ⟨n, charged⟩ := b.recounted_charge r (b.lock k).claim (b.lock k).requestedMode l
  by_cases here : l = k
  · subst here
    obtain ⟨m, same⟩ :=
      b.recounted_charge r (b.lock l).claim (b.lock l).requestedMode e.claim.id
    have named := c.named l known
    rw [home_seat _ q (by rw [charged, resource])] at inside
    rw [lock_seat_self] at mode meets
    rw [leaves, lock_seat_of_ne _ x q (Nat.ne_of_lt earlier), same]
    exact leaves_of_not_blocked free (part inside) (named.symm ▸ earlier) (mode.trans wanted)
      (claim ▸ meets)
  · rw [lock_seat_of_ne _ _ _ here, charged] at holds
    exact absurd none holds

/-- A lock that is granted as it comes. -/
theorem inTurn_accept (c : b.Coherent) (known : k < b.size) (bound : (b.lock k).resource = r)
    (free : ¬b.Blocked r ⟨(b.lock k).claim, (b.lock k).requestedMode⟩) :
    InTurn b ((b.charge r (b.lock k).claim (b.lock k).requestedMode).accept k) := by
  obtain ⟨n, charged⟩ := b.recounted_charge r (b.lock k).claim (b.lock k).requestedMode k
  refine inTurn_seat c known free ?_ ?_ ?_ ?_ <;> simp only [home, charged]
  · rfl
  · rfl
  · rfl
  · rw [← bound]
    exact List.Subset.refl _

/-! ### Looking at a resource again -/

/-- Nobody has come to wait. -/
def Thins (b b' : Ledger) : Prop := ∀ r, (b'.queues r).waiting ⊆ (b.queues r).waiting

namespace Thins

theorem refl (b : Ledger) : Thins b b := fun _ => List.Subset.refl _

theorem trans (first : Thins b b') (second : Thins b' b'') : Thins b b'' :=
  fun r => List.Subset.trans (second r) (first r)

theorem seat {x : Lock} {q : Queues} (part : q.waiting ⊆ (b.home k).waiting) :
    Thins b (b.seat k x q) := by
  intro r
  by_cases here : r = (b.lock k).resource
  · subst here
    rw [queues_seat_self]
    exact part
  · rw [queues_seat_of_ne _ _ _ here]
    exact List.Subset.refl _

end Thins

/-- Nobody has come to wait, and nobody asks for another mode. -/
structure Narrows (b b' : Ledger) : Prop where
  keeps : Keeps b b'
  wanted : ∀ l, (b'.lock l).requestedMode = (b.lock l).requestedMode
  thins : Thins b b'

namespace Narrows

theorem trans (first : Narrows b b') (second : Narrows b' b'') : Narrows b b'' :=
  ⟨first.keeps.trans second.keeps, fun l => (second.wanted l).trans (first.wanted l),
    first.thins.trans second.thins⟩

theorem seat {x : Lock} {q : Queues} (stays : Stays (b.lock k) x)
    (wanted : x.requestedMode = (b.lock k).requestedMode)
    (part : q.waiting ⊆ (b.home k).waiting) : Narrows b (b.seat k x q) := by
  refine ⟨.seat b q stays, fun l => ?_, .seat part⟩
  by_cases here : l = k
  · subst here
    rw [lock_seat_self]
    exact wanted
  · rw [lock_seat_of_ne _ _ _ here]

theorem charge (b : Ledger) (r : ResourceId) (claim : Claim) (mode : Mode) :
    Narrows b (b.charge r claim mode) := by
  refine ⟨⟨rfl, rfl, fun l => ?_⟩, fun l => ?_, .refl b⟩
  all_goals
    obtain ⟨n, same⟩ := b.recounted_charge r claim mode l
    rw [same]
  exact ⟨rfl, rfl, rfl, rfl, .inl rfl⟩

/-- A lock that is given what it waits for stays, and waits no more. -/
theorem serve (b : Ledger) (waits : (b.lock k).state = .waiting) : Narrows b (b.serve k) := by
  have stays : (b.lock k).state.leaving = false := by
    rw [waits]
    rfl
  exact seat ⟨rfl, rfl, rfl, rfl, .inr ⟨stays, rfl, nofun⟩⟩ rfl
    fun _ inside => List.mem_of_mem_filter inside

theorem complete (b : Ledger) (converts : (b.lock k).state = .converting) :
    Narrows b (b.complete k) := by
  have stays : (b.lock k).state.leaving = false := by
    rw [converts]
    rfl
  exact seat ⟨rfl, rfl, rfl, rfl, .inr ⟨stays, rfl, nofun⟩⟩ rfl fun _ inside => inside

theorem award (done : Award r b b') : Narrows b b' := by
  cases done with
  | serve _ _ waits _ _ =>
    refine (charge b r _ _).trans (serve _ ?_)
    obtain ⟨n, same⟩ := b.recounted_charge r _ _ _
    rw [same]
    exact waits
  | complete _ _ converts _ => exact complete b converts

theorem awards (done : Awards r b b') : Narrows b b' := by
  induction done with
  | refl => exact ⟨.refl b, fun _ => rfl, .refl b⟩
  | tail _ last ih => exact ih.trans (award last)

theorem home (narrows : Narrows b b') (l : LockId) :
    (b'.home l).waiting ⊆ (b.home l).waiting := by
  rw [Ledger.home, Ledger.home, (narrows.keeps.lock l).resource]
  exact narrows.thins _

theorem precedes (narrows : Narrows b b') {e : Entry} (precedes : b'.Precedes e l) :
    b.Precedes e l := by
  obtain ⟨earlier, mode, meets⟩ := precedes
  rw [narrows.wanted] at mode
  rw [(narrows.keeps.lock l).claim] at meets
  exact ⟨earlier, mode, meets⟩

theorem leaves (narrows : Narrows b b') (e : Entry) : b'.leaves e = b.leaves e :=
  (narrows.keeps.lock e.claim.id).leaving

end Narrows

/-- Whoever had nothing is given what it waits for in turn. -/
theorem Award.inTurn (c : b.Coherent) (done : Award r b b') : InTurn b b' := by
  cases done with
  | @serve k known bound _ free _ =>
    obtain ⟨n, charged⟩ := b.recounted_charge r (b.lock k).claim (b.lock k).requestedMode k
    refine inTurn_seat c known free ?_ ?_ ?_ ?_ <;> simp only [home, charged]
    · rfl
    · rfl
    · rfl
    · rw [← bound]
      exact fun _ member => List.mem_of_mem_filter member
  | @complete k known _ converts _ =>
    -- A lock that converts has been granted before.
    have own := c.seated k known
    rw [Lock.Seated, converts] at own
    obtain ⟨old, held, -⟩ := own.of_state_converting
    refine Barren.inTurn (.seat _ fun none => ?_)
    rw [none] at held
    cases held

theorem Awards.inTurn (c : b.Coherent) (done : Awards r b b') : InTurn b b' := by
  induction done with
  | refl => exact .refl b
  | @tail b' b'' before last ih =>
    have c' : b'.Coherent := c.steps (Awards.grants before).steps
    have narrows := Narrows.award last
    rintro l ⟨none, holds⟩ e inside precedes
    -- Whoever is served by the last award was not by those before, and the other way round.
    by_cases early : (b'.lock l).grantedMode = .none
    · exact last.inTurn c' l ⟨early, holds⟩ e inside precedes
    · rw [narrows.leaves]
      exact ih l ⟨none, early⟩ e (narrows.home l inside) (narrows.precedes precedes)

/-! ### What is done at once -/

variable {brought : Option LockId}

theorem Shift.inTurn (c : b.Coherent) (shift : Shift b brought b') : InTurn b b' := by
  cases shift with
  | still _ => exact .refl b
  | register _ _ nothing _ => exact Barren.inTurn (.extend nothing)
  | rebind _ _ r key => exact Barren.inTurn (.set id)
  | @accept k r b₁ known new bound entered free _ =>
    subst entered
    have entry : Barren b (b.set k ((b.lock k).enter .enqueued)) := .set id
    have accepted := inTurn_accept (k := k) (r := r) (c.enqueue known new) known
    rw [lock_set_self] at accepted
    exact .head entry (accepted bound free)
  | @wait k _ _ =>
    have entry : Barren b (b.set k ((b.lock k).enter .enqueued)) := .set id
    have waits : Barren _ ((b.set k ((b.lock k).enter .enqueued)).wait k) := .seat _ id
    exact .head entry waits.inTurn
  | pend => exact Barren.inTurn (.seat _ id)
  | switch known granted free awards =>
    have held := c.held_of_granted known granted
    have after := Awards.inTurn (c.switch known granted free) awards
    exact .head (.seat _ fun none => absurd none held) after
  | mark => exact Barren.inTurn (.set id)
  | leave known _ awards =>
    apply InTurn.retire
    exact .head (.seat _ fun _ => rfl) (Awards.inTurn (c.leave known) awards)

/-- Whoever comes to wait has been brought to the queues. -/
theorem Shift.thins (shift : Shift b none b') : Thins b b' := by
  cases shift with
  | @switch k mode _ _ _ _ _ awards =>
    have switched : Thins b (b.switch k mode) := .seat (List.Subset.refl _)
    exact switched.trans (Narrows.awards awards).thins
  | @leave k _ _ _ _ awards =>
    have left : Thins b (b.leave k) := .seat fun _ inside => List.mem_of_mem_filter inside
    exact left.trans (Narrows.awards awards).thins
  | pend => exact .seat (List.Subset.refl _)
  | _ => exact .refl b

end Ledger
end LockManager
