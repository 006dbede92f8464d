import LockManager.Queues
import Mathlib.Data.Nat.Bitwise

set_option autoImplicit false

/-!
What it means that two claims conflict. The check on parts of a resource is exact for parts that
are not empty: it finds a common byte or a common bit where there is one. A pending conversion
wants a mode that something stands against which did not stand against the mode held, and only
between `protectedRead` and `concurrentWrite` does such a conversion also make room.
-/

namespace LockManager

namespace Policy

/-- Two parts have a byte or a bit in common, or are not to be told apart. -/
def Share : Policy → Policy → Prop
  | .extent first last, .extent first' last' =>
    ∃ offset, (first ≤ offset ∧ offset ≤ last) ∧ (first' ≤ offset ∧ offset ≤ last')
  | .inodeBits bits, .inodeBits bits' =>
    ∃ i, bits.toNat.testBit i = true ∧ bits'.toNat.testBit i = true
  | _, _ => True

theorem extents_share_iff {first last first' last' : UInt64} (proper : first ≤ last)
    (proper' : first' ≤ last') :
    (first ≤ last' ∧ first' ≤ last) ↔ (extent first last).Share (extent first' last') := by
  simp only [Share, UInt64.le_iff_toNat_le] at *
  constructor
  · rintro ⟨left, right⟩
    rcases Nat.le_total first.toNat first'.toNat with before | before
    · exact ⟨first', ⟨before, right⟩, Nat.le_refl _, proper'⟩
    · exact ⟨first, ⟨Nat.le_refl _, proper⟩, before, left⟩
  · rintro ⟨offset, inside, inside'⟩
    omega

theorem bits_share_iff (bits bits' : UInt64) :
    bits &&& bits' ≠ 0 ↔ (inodeBits bits).Share (inodeBits bits') := by
  have meet : bits &&& bits' ≠ 0 ↔ (bits.toNat &&& bits'.toNat) ≠ 0 := by
    rw [← UInt64.toNat_and, ne_eq, ← UInt64.toNat_inj]
    rfl
  rw [meet]
  constructor
  · intro nonzero
    obtain ⟨i, set⟩ := Nat.exists_testBit_of_ne_zero nonzero
    rw [Nat.testBit_and, Bool.and_eq_true] at set
    exact ⟨i, set⟩
  · rintro ⟨i, set, set'⟩ zero
    have bit := congrArg (·.testBit i) zero
    simp [Nat.testBit_and, set, set'] at bit

/-- The check is exact for parts that are not empty. -/
theorem overlaps_iff_share {p q : Policy} (hp : p.fault? = none) (hq : q.fault? = none) :
    p.overlaps q = true ↔ p.Share q := by
  cases p with
  | extent first last =>
    cases q with
    | extent first' last' =>
      have proper : first ≤ last := by simpa [fault?] using hp
      have proper' : first' ≤ last' := by simpa [fault?] using hq
      rw [← extents_share_iff proper proper']
      simp [overlaps]
    | _ => simp [overlaps, Share]
  | inodeBits bits =>
    cases q with
    | inodeBits bits' =>
      rw [← bits_share_iff]
      simp [overlaps]
    | _ => simp [overlaps, Share]
  | plain => simp [overlaps, Share]

end Policy

namespace Mode

/-- Some mode goes with `held` and not with `m`. -/
def raises (held m : Mode) : Bool := all.any fun x => held.compatible x && !m.compatible x

/-- The two modes neither of which is stronger than the other. -/
def Crosses (m : Mode) : Prop := m = protectedRead ∨ m = concurrentWrite

instance (m : Mode) : Decidable m.Crosses :=
  inferInstanceAs (Decidable (m = protectedRead ∨ m = concurrentWrite))

theorem raises_of_opposed {held m x : Mode} (beside : held.compatible x = true)
    (against : m.compatible x = false) : held.raises m = true := by
  simp only [raises, List.any_eq_true, mem_all, true_and]
  exact ⟨x, by simp [beside, against]⟩

theorem ne_of_raises {held m : Mode} (up : held.raises m = true) : held ≠ m := by
  rintro rfl
  simp [raises] at up

/-- A conversion that makes room for `x` although it is not to a weaker mode. -/
theorem crosses_of_raises {held m x : Mode} (up : held.raises m = true)
    (against : held.compatible x = false) (beside : m.compatible x = true) :
    m = x ∧ x.Crosses := by
  have every : ∀ held ∈ all, ∀ m ∈ all, ∀ x ∈ all, held.raises m = true →
      held.compatible x = false → m.compatible x = true → m = x ∧ x.Crosses := by
    decide
  exact every held (mem_all _) m (mem_all _) x (mem_all _) up against beside

/-- A conversion away from `x` stands against `x`. -/
theorem against_of_raises {x m : Mode} (up : x.raises m = true) (cross : x.Crosses) :
    m.compatible x = false := by
  have every : ∀ x ∈ all, ∀ m ∈ all, x.raises m = true → x.Crosses → m.compatible x = false := by
    decide
  exact every x (mem_all _) m (mem_all _) up cross

/-- Whatever goes with `m` goes with `held`. -/
def Covers (m held : Mode) : Prop := ∀ x, m.compatible x = true → held.compatible x = true

instance (m held : Mode) : Decidable (m.Covers held) :=
  decidable_of_iff (∀ x ∈ all, m.compatible x = true → held.compatible x = true) <| by
    simp only [Covers, mem_all, true_implies]

theorem Covers.refl (m : Mode) : m.Covers m := fun _ => id

theorem Covers.trans {m m' m'' : Mode} (first : m.Covers m') (second : m'.Covers m'') :
    m.Covers m'' :=
  fun x beside => second x (first x beside)

/-- Two modes go together if they are covered by modes that do. -/
theorem Covers.compatible {m m' s s' : Mode} (first : s.Covers m) (second : s'.Covers m')
    (beside : s.compatible s' = true) : m.compatible m' = true := by
  have half := first s' beside
  rw [compatible_comm] at half ⊢
  exact second m half

end Mode

namespace Entry

theorem opposes_iff {e : Entry} {claim : Claim} {mode : Mode} :
    e.opposes claim mode = true ↔
      e.claim.id ≠ claim.id ∧ e.mode.compatible mode = false ∧
        e.claim.policy.overlaps claim.policy = true := by
  simp [opposes, conflicts]

theorem opposes_comm (e e' : Entry) :
    e.opposes e'.claim e'.mode = e'.opposes e.claim e.mode := by
  simp only [opposes, conflicts_comm e.mode, bne_comm]

theorem opposes_self (claim : Claim) (held mode : Mode) :
    Entry.opposes ⟨claim, held⟩ claim mode = false := by
  simp [opposes]

/-- Whoever stands against a mode stands against those that cover it. -/
theorem opposes_of_covers {e : Entry} {claim : Claim} {m m' : Mode} (covers : m.Covers m')
    (against : e.opposes claim m' = true) : e.opposes claim m = true := by
  obtain ⟨other, refuses, meet⟩ := opposes_iff.mp against
  refine opposes_iff.mpr ⟨other, Bool.eq_false_iff.mpr fun beside => ?_, meet⟩
  rw [Mode.compatible_comm] at beside refuses
  rw [covers e.mode beside] at refuses
  cases refuses

end Entry

end LockManager
