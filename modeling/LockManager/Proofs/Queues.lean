import LockManager.Proofs.Conflict
import Mathlib.Data.List.Basic

set_option autoImplicit false

/-!
What each change of the queues does to the entries of one lock. All but the insertion of an entry
act on the entries of every lock apart, so they commute with `Queues.of`.
-/

namespace LockManager
namespace Queues

def entries (q : Queues) : List Entry := q.granted ++ q.converting ++ q.waiting

@[simp] theorem mem_entries {q : Queues} {e : Entry} :
    e ∈ q.entries ↔ (e ∈ q.granted ∨ e ∈ q.converting) ∨ e ∈ q.waiting := by
  simp only [entries, List.mem_append]

/-- The entries of lock `l` alone. -/
def of (q : Queues) (l : LockId) : Queues :=
  { granted := q.granted.filter (·.claim.id == l)
    converting := q.converting.filter (·.claim.id == l)
    waiting := q.waiting.filter (·.claim.id == l) }

theorem mem_granted_of {q : Queues} {l : LockId} {e : Entry} :
    e ∈ (q.of l).granted ↔ e ∈ q.granted ∧ e.claim.id = l := by
  simp [of]

theorem mem_converting_of {q : Queues} {l : LockId} {e : Entry} :
    e ∈ (q.of l).converting ↔ e ∈ q.converting ∧ e.claim.id = l := by
  simp [of]

theorem mem_waiting_of {q : Queues} {l : LockId} {e : Entry} :
    e ∈ (q.of l).waiting ↔ e ∈ q.waiting ∧ e.claim.id = l := by
  simp [of]

theorem mem_entries_of {q : Queues} {l : LockId} {e : Entry} :
    e ∈ (q.of l).entries ↔ e ∈ q.entries ∧ e.claim.id = l := by
  simp only [mem_entries, mem_granted_of, mem_converting_of, mem_waiting_of]
  tauto

/-- A lock without entries is in no queue. -/
theorem not_mem_of_empty {q : Queues} {l : LockId} (none : q.of l = {}) {e : Entry}
    (place : e ∈ q.entries) : e.claim.id ≠ l := by
  intro same
  have own : e ∈ (q.of l).entries := mem_entries_of.mpr ⟨place, same⟩
  simp [none, entries] at own

/-- Where no lock has two entries, no two entries are of one lock. -/
theorem distinct_of_few {es : List Entry} (few : ∀ l, (es.filter (·.claim.id == l)).length ≤ 1) :
    es.Pairwise (·.claim.id ≠ ·.claim.id) := by
  induction es with
  | nil => exact .nil
  | cons e es ih =>
    refine .cons ?_ (ih fun l => ?_)
    · intro x inside same
      have both := few e.claim.id
      rw [List.filter_cons, if_pos (beq_self_eq_true _), List.length_cons] at both
      have none := List.length_eq_zero_iff.mp (Nat.le_zero.mp (Nat.le_of_succ_le_succ both))
      exact List.filter_eq_nil_iff.mp none x inside (beq_iff_eq.mpr same.symm)
    · exact Nat.le_trans ((List.sublist_cons_self e es).filter _).length_le (few l)

/-! ### Changes and the entries of one lock -/

theorem of_addGranted (q : Queues) (e : Entry) (l : LockId) :
    (q.addGranted e).of l = if e.claim.id = l then (q.of l).addGranted e else q.of l := by
  by_cases same : e.claim.id = l <;> simp [of, addGranted, same]

theorem of_addConverting (q : Queues) (e : Entry) (l : LockId) :
    (q.addConverting e).of l = if e.claim.id = l then (q.of l).addConverting e else q.of l := by
  by_cases same : e.claim.id = l <;> simp [of, addConverting, same]

theorem of_dropWaiting (q : Queues) (k l : LockId) :
    (q.dropWaiting k).of l = (q.of l).dropWaiting k := by
  simp only [of, dropWaiting, List.filter_filter, Bool.and_comm]

theorem of_dropConverting (q : Queues) (k l : LockId) :
    (q.dropConverting k).of l = (q.of l).dropConverting k := by
  simp only [of, dropConverting, List.filter_filter, Bool.and_comm]

theorem of_remove (q : Queues) (k l : LockId) : (q.remove k).of l = (q.of l).remove k := by
  simp only [of, remove, List.filter_filter, Bool.and_comm]

theorem of_setGrantedMode (q : Queues) (k l : LockId) (mode : Mode) :
    (q.setGrantedMode k mode).of l = (q.of l).setGrantedMode k mode := by
  have keeps : ((·.claim.id == l) ∘ fun e : Entry =>
      if e.claim.id = k then { e with mode } else e) =
      (·.claim.id == l) := by
    funext e
    by_cases same : e.claim.id = k <;> simp [same]
  simp only [of, setGrantedMode, List.filter_map, keeps]

theorem of_addWaiting_of_ne (q : Queues) {e : Entry} {l : LockId} (other : e.claim.id ≠ l) :
    (q.addWaiting e).of l = q.of l := by
  simp only [of, addWaiting, List.filter_append, List.filter_cons, beq_iff_eq, other, if_false]
  rw [← List.filter_append, List.takeWhile_append_dropWhile]

theorem of_addWaiting_self (q : Queues) {e : Entry} (none : (q.of e.claim.id).waiting = []) :
    (q.addWaiting e).of e.claim.id = { q.of e.claim.id with waiting := [e] } := by
  have absent : ∀ x ∈ q.waiting, ¬(x.claim.id == e.claim.id) = true := by
    simpa [of, List.filter_eq_nil_iff] using none
  have before := List.filter_eq_nil_iff.mpr fun x inside =>
    absent x ((List.takeWhile_sublist (·.claim.id ≤ e.claim.id)).subset inside)
  have after := List.filter_eq_nil_iff.mpr fun x inside =>
    absent x ((List.dropWhile_sublist (·.claim.id ≤ e.claim.id)).subset inside)
  simp only [of, addWaiting, List.filter_append, List.filter_cons, beq_self_eq_true, if_true,
    before, after, List.nil_append]

/-! ### The entries of the other locks -/

/-- Only entries of `l` differ. -/
def SameBut (l : LockId) (q q' : Queues) : Prop := ∀ k, k ≠ l → q'.of k = q.of k

theorem sameBut_addGranted (q : Queues) {e : Entry} {l : LockId} (mine : e.claim.id = l) :
    SameBut l q (q.addGranted e) := by
  intro k other
  rw [of_addGranted, mine, if_neg (Ne.symm other)]

theorem sameBut_addConverting (q : Queues) {e : Entry} {l : LockId} (mine : e.claim.id = l) :
    SameBut l q (q.addConverting e) := by
  intro k other
  rw [of_addConverting, mine, if_neg (Ne.symm other)]

theorem sameBut_addWaiting (q : Queues) {e : Entry} {l : LockId} (mine : e.claim.id = l) :
    SameBut l q (q.addWaiting e) := by
  intro k other
  exact q.of_addWaiting_of_ne (mine ▸ Ne.symm other)

theorem sameBut_dropWaiting (q : Queues) (l : LockId) : SameBut l q (q.dropWaiting l) := by
  intro k other
  rw [of_dropWaiting]
  simp only [of, dropWaiting, List.filter_filter, Queues.mk.injEq, true_and]
  apply List.filter_congr
  intro e _
  by_cases same : e.claim.id = k <;> simp [same, other]

theorem sameBut_dropConverting (q : Queues) (l : LockId) :
    SameBut l q (q.dropConverting l) := by
  intro k other
  rw [of_dropConverting]
  simp only [of, dropConverting, List.filter_filter, Queues.mk.injEq, true_and, and_true]
  apply List.filter_congr
  intro e _
  by_cases same : e.claim.id = k <;> simp [same, other]

theorem sameBut_remove (q : Queues) (l : LockId) : SameBut l q (q.remove l) := by
  intro k other
  have same : ((·.claim.id == k) : Entry → Bool) =
      fun e => (e.claim.id != l && e.claim.id == k) := by
    funext e
    by_cases here : e.claim.id = k <;> simp [here, other]
  rw [of_remove]
  simp only [of, remove, List.filter_filter, same, Bool.and_self_left]

theorem sameBut_setGrantedMode (q : Queues) (l : LockId) (mode : Mode) :
    SameBut l q (q.setGrantedMode l mode) := by
  intro k other
  rw [of_setGrantedMode]
  simp only [of, setGrantedMode, Queues.mk.injEq, and_true]
  refine (List.map_congr_left fun e inside => ?_).trans (List.map_id _)
  have here : e.claim.id = k := by simpa using (List.mem_filter.mp inside).2
  simp [here, other]

theorem SameBut.trans {l : LockId} {q q' q'' : Queues} (first : SameBut l q q')
    (second : SameBut l q' q'') : SameBut l q q'' :=
  fun k other => (second k other).trans (first k other)

/-! ### Order of arrival -/

/-- The waiting queue is in order of arrival. -/
def Ordered (q : Queues) : Prop := q.waiting.Pairwise (·.claim.id < ·.claim.id)

theorem earlier_eq_filter {q : Queues} (ordered : q.Ordered) (claim : Claim) :
    q.earlier claim = q.waiting.filter (·.claim.id < claim.id) := by
  unfold Ordered at ordered
  unfold earlier
  generalize q.waiting = es at ordered ⊢
  induction es with
  | nil => rfl
  | cons e rest ih =>
    rw [List.pairwise_cons] at ordered
    by_cases before : e.claim.id < claim.id
    · simp only [List.takeWhile_cons, List.filter_cons, before, decide_true, if_true,
        ih ordered.2]
    · have later : ∀ x ∈ rest, ¬(decide (x.claim.id < claim.id)) = true := by
        intro x inside
        have after : e.claim.id < x.claim.id := ordered.1 x inside
        simp only [decide_eq_true_eq]
        exact fun sooner => before (Nat.lt_trans after sooner)
      simp [before, List.filter_eq_nil_iff.mpr later]

theorem mem_earlier {q : Queues} (ordered : q.Ordered) {claim : Claim} {e : Entry} :
    e ∈ q.earlier claim ↔ e ∈ q.waiting ∧ e.claim.id < claim.id := by
  simp [earlier_eq_filter ordered]

theorem mem_addWaiting {q : Queues} {e x : Entry} :
    x ∈ (q.addWaiting e).waiting ↔ x = e ∨ x ∈ q.waiting := by
  have split : x ∈ q.waiting ↔ x ∈ q.waiting.takeWhile (·.claim.id ≤ e.claim.id) ∨
      x ∈ q.waiting.dropWhile (·.claim.id ≤ e.claim.id) := by
    rw [← List.mem_append, List.takeWhile_append_dropWhile]
  simp only [addWaiting, List.mem_append, List.mem_cons, split]
  tauto

theorem ordered_addWaiting {q : Queues} (ordered : q.Ordered) {e : Entry}
    (absent : (q.of e.claim.id).waiting = []) : (q.addWaiting e).Ordered := by
  have other : ∀ x ∈ q.waiting, x.claim.id ≠ e.claim.id := by
    simpa [of, List.filter_eq_nil_iff] using absent
  unfold Ordered at ordered ⊢
  unfold addWaiting
  simp only
  clear absent
  generalize q.waiting = es at ordered other ⊢
  induction es with
  | nil => simp
  | cons x rest ih =>
    rw [List.pairwise_cons] at ordered
    have others : ∀ y ∈ rest, y.claim.id ≠ e.claim.id :=
      fun y inside => other y (List.mem_cons_of_mem x inside)
    by_cases before : x.claim.id ≤ e.claim.id
    · have strict : x.claim.id < e.claim.id :=
        Nat.lt_of_le_of_ne before (other x (List.mem_cons_self))
      simp only [List.takeWhile_cons, List.dropWhile_cons, before, decide_true, if_true,
        List.cons_append, List.pairwise_cons]
      refine ⟨?_, ih ordered.2 others⟩
      intro y inside
      have member : y ∈ (({ waiting := rest } : Queues).addWaiting e).waiting := inside
      rcases mem_addWaiting.mp member with rfl | behind
      · exact strict
      · exact ordered.1 y behind
    · have first : e.claim.id < x.claim.id := Nat.lt_of_not_le before
      simp only [List.takeWhile_cons, List.dropWhile_cons, before, decide_false, List.nil_append,
        List.pairwise_cons, Bool.false_eq_true, if_false]
      refine ⟨?_, ordered⟩
      intro y inside
      rcases List.mem_cons.mp inside with rfl | behind
      · exact first
      · exact Nat.lt_trans first (ordered.1 y behind)

theorem ordered_of_sublist {q q' : Queues} (ordered : q.Ordered)
    (part : q'.waiting.Sublist q.waiting) : q'.Ordered :=
  List.Pairwise.sublist part ordered

/-- A lock that leaves the waiting queue has no part in who came before it. -/
theorem earlier_dropWaiting {q : Queues} (ordered : q.Ordered) (claim : Claim) :
    (q.dropWaiting claim.id).earlier claim = q.earlier claim := by
  have still : (q.dropWaiting claim.id).Ordered :=
    ordered_of_sublist ordered List.filter_sublist
  rw [earlier_eq_filter still, earlier_eq_filter ordered]
  simp only [dropWaiting, List.filter_filter]
  apply List.filter_congr
  intro e _
  by_cases before : e.claim.id < claim.id
  · simp [before, Nat.ne_of_lt before]
  · simp [before]

/-! ### Granted locks -/

/-- No two granted locks stand against each other. -/
def Apart (q : Queues) : Prop :=
  ∀ e ∈ q.granted, ∀ e' ∈ q.granted, e.opposes e'.claim e'.mode = false

theorem apart_addGranted {q : Queues} (apart : q.Apart) {e : Entry}
    (free : ∀ x ∈ q.granted, x.opposes e.claim e.mode = false) : (q.addGranted e).Apart := by
  intro x inside y inside'
  simp only [addGranted, List.mem_append, List.mem_singleton] at inside inside'
  rcases inside with old | rfl <;> rcases inside' with old' | rfl
  · exact apart x old y old'
  · exact free x old
  · rw [Entry.opposes_comm]
    exact free y old'
  · exact Entry.opposes_self _ _ _

theorem mem_setGrantedMode {q : Queues} {l : LockId} {mode : Mode} {x : Entry} :
    x ∈ (q.setGrantedMode l mode).granted ↔
      ∃ e ∈ q.granted, x = if e.claim.id = l then { e with mode } else e := by
  simp only [setGrantedMode, List.mem_map, eq_comm]

theorem apart_setGrantedMode {q : Queues} (apart : q.Apart) {claim : Claim} {mode : Mode}
    (named : ∀ e ∈ q.granted, e.claim.id = claim.id → e.claim = claim)
    (free : ∀ x ∈ q.granted, x.opposes claim mode = false) :
    (q.setGrantedMode claim.id mode).Apart := by
  intro x inside y inside'
  obtain ⟨e, old, rfl⟩ := mem_setGrantedMode.mp inside
  obtain ⟨e', old', rfl⟩ := mem_setGrantedMode.mp inside'
  by_cases here : e.claim.id = claim.id <;> by_cases here' : e'.claim.id = claim.id
  · simp only [if_true, named e old here, named e' old' here']
    exact Entry.opposes_self _ _ _
  · simp only [here', if_true, if_false, named e old here]
    rw [Entry.opposes_comm]
    exact free e' old'
  · simp only [here, if_true, if_false, named e' old' here']
    exact free e old
  · simp only [here, here', if_false]
    exact apart e old e' old'

theorem apart_of_granted_subset {q q' : Queues} (apart : q.Apart) (part : q'.granted ⊆ q.granted) :
    q'.Apart :=
  fun x inside y inside' => apart x (part inside) y (part inside')

end Queues
end LockManager
