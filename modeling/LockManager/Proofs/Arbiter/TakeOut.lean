import LockManager.Proofs.Arbiter.Matches

set_option autoImplicit false

/-!
Taking locks out of the queues of a resource one at a time, and looking at it again each time. If nothing
can be granted before the last of them is out, it is as if all had been taken out at once.
-/

namespace LockManager

namespace Queues

/-- The queues without the entries of the locks `ls`. -/
def without (q : Queues) (ls : List LockId) : Queues :=
  { granted := q.granted.filter (·.claim.id ∉ ls)
    converting := q.converting.filter (·.claim.id ∉ ls)
    waiting := q.waiting.filter (·.claim.id ∉ ls) }

/-- The queues without the entries of `owner`. -/
def disown (q : Queues) (owner : Owner) : Queues :=
  { granted := q.granted.filter (·.claim.owner ≠ owner)
    converting := q.converting.filter (·.claim.owner ≠ owner)
    waiting := q.waiting.filter (·.claim.owner ≠ owner) }

theorem without_nil (q : Queues) : q.without [] = q := by
  simp [without]

theorem without_concat (q : Queues) (ls : List LockId) (l : LockId) :
    q.without (ls ++ [l]) = (q.without ls).remove l := by
  have both (es : List Entry) : es.filter (·.claim.id ∉ ls ++ [l]) =
      (es.filter (·.claim.id ∉ ls)).filter (·.claim.id != l) := by
    rw [List.filter_filter]
    refine List.filter_congr fun e _ => ?_
    rw [Bool.eq_iff_iff]
    simp only [List.mem_append, List.mem_singleton, Bool.and_eq_true, bne_iff_ne,
      decide_eq_true_eq]
    tauto
  simp only [without, remove, both]

end Queues

namespace Arbiter

/-- Takes the locks out of the queues one at a time, and looks at the resource again each time. -/
def takeOut (a : Arbiter) (ls : List LockId) : Arbiter :=
  ls.foldl (fun a l => (a.modifyQueues (·.remove l)).reprocess) a

/-- Nothing on the resource can be granted. -/
def Still (a : Arbiter) : Prop :=
  (∀ e ∈ a.queues.converting, a.opposed e.claim e.mode = true) ∧
    ∀ e ∈ a.queues.waiting, a.grantable e.claim e.mode = false

instance (a : Arbiter) : Decidable a.Still := inferInstanceAs (Decidable (_ ∧ _))

variable {a : Arbiter}

theorem takeOut_concat (a : Arbiter) (ls : List LockId) (l : LockId) :
    a.takeOut (ls ++ [l]) = ((a.takeOut ls).modifyQueues (·.remove l)).reprocess := by
  simp only [takeOut, List.foldl_append, List.foldl_cons, List.foldl_nil]

theorem foldl_of_still {f : Arbiter → Entry → Arbiter} {es : List Entry}
    (each : ∀ e ∈ es, f a e = a) : es.foldl f a = a := by
  induction es with
  | nil => rfl
  | cons e es ih =>
    rw [List.foldl_cons, each e List.mem_cons_self]
    exact ih fun x later => each x (List.mem_cons_of_mem e later)

/-- Looking at such a resource again only asks the holders to give way. -/
theorem Still.reprocess (still : a.Still) :
    a.reprocess = (a.queues.converting ++ a.queues.waiting).foldl askFor a := by
  have converted : a.queues.converting.foldl retryConversion a = a :=
    foldl_of_still fun e inside => by simp [retryConversion, still.1 e inside]
  have served : a.queues.waiting.foldl retryWaiter a = a :=
    foldl_of_still fun e inside => by simp [retryWaiter, still.2 e inside]
  rw [Arbiter.reprocess, converted, served]

theorem Still.matches {P : LockId → Prop} (still : a.Still)
    (within : ∀ e ∈ a.queues.entries, P e.claim.id) : Matches P a a.reprocess := by
  have asked := ledger_foldl 0 (fun _ => {}) (ledger_askFor 0 fun _ => {})
    (a.queues.converting ++ a.queues.waiting) a
  rw [still.reprocess]
  exact (Matches.refl within).of_ledger rfl asked

variable {ls : List LockId}

/-- Taking out one more. -/
theorem matches_takeOut_concat {l : LockId}
    (m : Matches (fun _ => True) (a.modifyQueues (·.without ls)) (a.takeOut ls)) :
    Matches (fun _ => True) (a.modifyQueues (·.without (ls ++ [l]))).reprocess
      (a.takeOut (ls ++ [l])) := by
  have more : (a.modifyQueues (·.without ls)).modifyQueues (·.remove l) =
      a.modifyQueues (·.without (ls ++ [l])) := by
    simp only [modifyQueues, Queues.without_concat]
  rw [takeOut_concat, ← more]
  exact (m.modifyQueues fun _ _ => trivial).reprocess

/-- As long as nothing can be granted, those who remain are as they were. -/
theorem matches_takeOut (still : ∀ n < ls.length, 0 < n →
    (a.modifyQueues (·.without (ls.take n))).Still) {n : Nat} (before : n < ls.length) :
    Matches (fun _ => True) (a.modifyQueues (·.without (ls.take n))) (a.takeOut (ls.take n)) := by
  induction n with
  | zero =>
    have same : a.modifyQueues (·.without []) = a := by
      simp only [modifyQueues, Queues.without_nil]
    rw [List.take_zero, same]
    exact .refl fun _ _ => trivial
  | succ n ih =>
    have earlier : n < ls.length := Nat.lt_of_succ_lt before
    have out := matches_takeOut_concat (l := ls[n]) (ih earlier)
    rw [List.take_append_getElem earlier] at out
    exact ((still (n + 1) before n.succ_pos).matches fun _ _ => trivial).trans out

/-- If nothing can be granted before the last of the locks is out, they might as well have been taken
out at once. -/
theorem queues_takeOut (some : ls ≠ []) (still : ∀ n < ls.length, 0 < n →
    (a.modifyQueues (·.without (ls.take n))).Still) :
    (a.takeOut ls).queues = (a.modifyQueues (·.without ls)).reprocess.queues := by
  obtain ⟨n, length⟩ := Nat.exists_eq_succ_of_ne_zero (List.length_pos_iff.mpr some).ne'
  have last : n < ls.length := by omega
  have out := matches_takeOut_concat (l := ls[n]) (matches_takeOut still last)
  rw [List.take_append_getElem last, List.take_of_length_le (Nat.le_of_eq length)] at out
  exact out.queues

end Arbiter
end LockManager
