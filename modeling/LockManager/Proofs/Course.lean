import LockManager.Proofs.Ledger
import Mathlib.Data.List.Chain

set_option autoImplicit false

/-!
The course of a lock: all states that it has gone through. It is told from the attempts to take an edge of
the life cycle, and a lock's record recalls the end of it.
-/

namespace LockManager

/-- How far a lock has come, and what its record recalls of that. -/
structure Station where
  state : LockState
  history : History
  deriving DecidableEq, Repr

def Lock.station (x : Lock) : Station := ⟨x.state, x.history⟩

/-- An attempt to take a lock to the state `next`, with the lock's record as it was found. -/
structure Advance where
  lock : LockId
  before : Lock
  next : LockState

namespace Advance

/-- There is such an edge, so the attempt is not refused. -/
def Taken (t : Advance) : Prop := t.before.state.allows t.next = true

instance (t : Advance) : Decidable t.Taken := inferInstanceAs (Decidable (_ = _))

def after (t : Advance) : Lock := (t.before.advance? t.next).getD t.before

theorem after_of_taken {t : Advance} (taken : t.Taken) : t.after = t.before.enter t.next := by
  rw [after, Lock.advance?_of_allows taken, Option.getD_some]

theorem after_of_not_taken {t : Advance} (refused : ¬t.Taken) : t.after = t.before := by
  rw [after, Lock.advance?_of_not_allows refused, Option.getD_none]

end Advance

variable {log early late : List Advance} {t : Advance} {l : LockId} {path : List LockState}
  {depth : Nat} {x : Station}

/-- The states that lock `l` has gone through. -/
def course (log : List Advance) (l : LockId) : List LockState :=
  .new :: (log.filter fun t => t.lock = l ∧ t.Taken).map (·.next)

theorem course_of_not_mem (absent : ∀ t ∈ log, t.lock ≠ l) : course log l = [.new] := by
  have none : log.filter (fun t => t.lock = l ∧ t.Taken) = [] := by
    rw [List.filter_eq_nil_iff]
    intro t inside both
    exact absent t inside (of_decide_eq_true both).1
  rw [course, none, List.map_nil]

theorem course_concat : course (log ++ [t]) l =
    course log l ++ if t.lock = l ∧ t.Taken then [t.next] else [] := by
  simp only [course, List.filter_append, List.map_append, List.cons_append]
  by_cases both : t.lock = l ∧ t.Taken
  · simp only [both, decide_true, List.filter_cons_of_pos, List.filter_nil, List.map_cons,
      List.map_nil, and_self, if_true]
  · simp [both]

/-! ### Life cycles -/

/-- A life from the start on, one edge after another. -/
structure Legal (path : List LockState) : Prop where
  starts : path.head? = some .new
  edges : path.IsChain fun s s' => s.allows s' = true

namespace Legal

theorem start : Legal [.new] := ⟨rfl, List.isChain_singleton _⟩

theorem concat (legal : Legal path) {s s' : LockState} (last : path.getLast? = some s)
    (edge : s.allows s' = true) : Legal (path ++ [s']) := by
  constructor
  · rw [List.head?_append, legal.starts, Option.some_or]
  · rw [List.isChain_append]
    refine ⟨legal.edges, List.isChain_singleton _, fun y isLast y' isNext => ?_⟩
    obtain rfl : s = y := Option.some.inj (last.symm.trans isLast)
    obtain rfl : s' = y' := Option.some.inj isNext
    exact edge

variable {before after : List LockState} {s : LockState}

/-- What comes before a state has an edge to it. -/
theorem edge_to (legal : Legal (before ++ s :: after)) :
    before = [] ∧ s = .new ∨
      ∃ earlier y, before = earlier ++ [y] ∧ y.allows s = true ∧ Legal (earlier ++ y :: [s]) := by
  rcases List.eq_nil_or_concat before with rfl | ⟨earlier, y, rfl⟩
  · exact .inl ⟨rfl, Option.some.inj legal.starts⟩
  · have edges := legal.edges
    have starts := legal.starts
    simp only [List.concat_eq_append, List.append_assoc, List.singleton_append] at edges starts
    obtain ⟨first, edge, -⟩ := List.isChain_append_cons_cons.mp edges
    refine .inr ⟨earlier, y, List.concat_eq_append, edge, ?_, ?_⟩
    · rw [List.head?_append] at starts ⊢
      exact starts
    · exact List.isChain_append_cons_cons.mpr ⟨first, edge, List.isChain_singleton _⟩

theorem mem_enqueued (legal : Legal (before ++ s :: after))
    (reached : s = .granted ∨ s = .waiting ∨ s = .converting) : LockState.enqueued ∈ before := by
  -- from one state back to the one before, as far as `ENQUEUED`
  induction before using List.reverseRecOn generalizing s after with
  | nil =>
    obtain rfl : s = .new := Option.some.inj legal.starts
    simp at reached
  | append_singleton earlier y ih =>
    rcases legal.edge_to with ⟨none, -⟩ | ⟨earlier', y', same, edge, rest⟩
    · simp at none
    · obtain ⟨rfl, last⟩ := List.append_inj' same rfl
      obtain rfl : y = y' := List.singleton_inj.mp last
      by_cases here : y = .enqueued
      · rw [here]
        exact List.mem_append_right _ (List.mem_singleton_self _)
      · refine List.mem_append_left _ (ih rest ?_)
        rcases reached with rfl | rfl | rfl
        · exact .inr ((LockState.allows_granted_iff.mp edge).resolve_left here)
        · exact absurd (LockState.allows_waiting_iff.mp edge) here
        · exact .inl (LockState.allows_converting_iff.mp edge)

end Legal

/-- What the edges come to. -/
structure Lawful (path : List LockState) : Prop extends Legal path where
  enqueued_before : ∀ before s after, path = before ++ s :: after →
    s = .granted ∨ s = .waiting → LockState.enqueued ∈ before
  granted_before : ∀ before after, path = before ++ .converting :: after →
    before.getLast? = some .granted
  canceled_last : ∀ before after, path = before ++ .canceled :: after → after = []

theorem Legal.lawful (legal : Legal path) : Lawful path := by
  refine ⟨legal, ?_, ?_, ?_⟩
  · rintro before s after rfl reached
    exact legal.mem_enqueued (reached.imp_right .inl)
  · rintro before after rfl
    rcases legal.edge_to with ⟨-, none⟩ | ⟨earlier, y, rfl, edge, -⟩
    · cases none
    · rw [List.getLast?_concat, LockState.allows_converting_iff.mp edge]
  · rintro before (_ | ⟨y, after⟩) rfl
    · rfl
    · obtain ⟨-, edge, -⟩ := List.isChain_append_cons_cons.mp legal.edges
      cases y <;> simp [LockState.allows, LockState.leaving] at edge

/-! ### What a record recalls -/

/-- The record recalls the last states of the lock's course, as many as there are up to `depth`, and the
last of them is the lock's own. -/
structure Remembers (depth : Nat) (path : List LockState) (x : Station) : Prop where
  bounded : x.history.depth = depth
  recent : x.history.states <:+ path
  length : x.history.states.length = min path.length depth
  current : x.history.states.getLast? = some x.state

namespace Remembers

theorem start (depth : Nat) (pos : 0 < depth) : Remembers depth [.new] ⟨.new, .start depth⟩ :=
  ⟨rfl, List.suffix_rfl, (Nat.min_eq_left pos).symm, rfl⟩

theorem getLast? (remembers : Remembers depth path x) : path.getLast? = some x.state := by
  obtain ⟨forgotten, rfl⟩ := remembers.recent
  rw [List.getLast?_append, remembers.current, Option.some_or]

/-- One state more is recalled, and the oldest one is forgotten if there were `depth` already. -/
theorem push (remembers : Remembers depth path x) (pos : 0 < depth) (s : LockState) :
    Remembers depth (path ++ [s]) ⟨s, x.history.push s⟩ := by
  obtain ⟨bounded, recent, length, -⟩ := remembers
  refine ⟨bounded, ?_, ?_, List.getLast?_concat⟩
  · have kept : (if x.history.states.length = x.history.depth then x.history.states.drop 1
        else x.history.states) <:+ path := by
      split
      · exact (List.drop_suffix 1 _).trans recent
      · exact recent
    obtain ⟨forgotten, rfl⟩ := kept
    exact ⟨forgotten, (List.append_assoc ..).symm⟩
  · rw [History.push, List.length_append, List.length_append, List.length_singleton, bounded]
    split
    · rw [List.length_drop]
      omega
    · omega

/-- The record that is left by an attempt recalls the course with it. -/
theorem advance (remembers : Remembers depth (course log t.lock) t.before.station)
    (pos : 0 < depth) : Remembers depth (course (log ++ [t]) t.lock) t.after.station := by
  rw [course_concat]
  by_cases taken : t.Taken
  · rw [if_pos ⟨rfl, taken⟩, t.after_of_taken taken]
    exact remembers.push pos t.next
  · rw [if_neg fun both => taken both.2, List.append_nil, t.after_of_not_taken taken]
    exact remembers

end Remembers

/-! ### All locks together -/

/-- How all locks stand. -/
structure Stations where
  size : Nat
  of : LockId → Station

namespace Stations

variable {p q r : Stations}

def advance (p : Stations) (t : Advance) : Stations :=
  { p with of := Function.update p.of t.lock t.after.station }

/-- The attempt is made on a lock as it stands. Only one to let a lock in may be refused. -/
structure Admits (p : Stations) (t : Advance) : Prop where
  known : t.lock < p.size
  current : p.of t.lock = t.before.station
  taken : t.next ≠ .enqueued → t.Taken

/-- From one attempt to the next, the log accounts for all that becomes of the locks. -/
inductive Leads : Stations → List Advance → Stations → Prop where
  | nil (p : Stations) : Leads p [] p
  | cons {p q : Stations} {t : Advance} {log : List Advance} (admits : p.Admits t)
      (rest : Leads (p.advance t) log q) : Leads p (t :: log) q

theorem Leads.append {later : List Advance} (first : p.Leads log q) (second : q.Leads later r) :
    p.Leads (log ++ later) r := by
  induction first with
  | nil => exact second
  | cons admits _ ih => exact .cons admits (ih second)

theorem Leads.single (admits : p.Admits t) (same : q = p.advance t) : p.Leads [t] q :=
  .cons admits (same ▸ .nil q)

/-- The log tells how the locks have come to stand as they do. -/
structure Recounted (depth : Nat) (log : List Advance) (p : Stations) : Prop where
  legal : ∀ l < p.size, Legal (course log l)
  remembers : ∀ l < p.size, Remembers depth (course log l) (p.of l)
  known : ∀ t ∈ log, t.lock < p.size
  taken : ∀ t ∈ log, t.next ≠ .enqueued → t.Taken
  before : ∀ early t late, log = early ++ t :: late →
    Remembers depth (course early t.lock) t.before.station

namespace Recounted

theorem start (depth : Nat) {p : Stations} (none : p.size = 0) : Recounted depth [] p := by
  have empty : ∀ l, ¬l < p.size := fun l => none ▸ Nat.not_lt_zero l
  refine ⟨fun l below => absurd below (empty l), fun l below => absurd below (empty l), ?_, ?_, ?_⟩
  · simp
  · simp
  · simp

theorem advance (recounted : Recounted depth log p) (pos : 0 < depth) (admits : p.Admits t) :
    Recounted depth (log ++ [t]) (p.advance t) := by
  have found := recounted.remembers t.lock admits.known
  rw [admits.current] at found
  refine ⟨fun l below => ?_, fun l below => ?_, ?_, ?_, fun early t' late same => ?_⟩
  · rw [course_concat]
    split
    · next here =>
      obtain ⟨rfl, taken⟩ := here
      exact (recounted.legal t.lock below).concat found.getLast? taken
    · rw [List.append_nil]
      exact recounted.legal l below
  · by_cases here : l = t.lock
    · rw [here, show (p.advance t).of t.lock = t.after.station from Function.update_self ..]
      exact found.advance pos
    · rw [course_concat, if_neg fun both => here both.1.symm, List.append_nil,
        show (p.advance t).of l = p.of l from Function.update_of_ne here ..]
      exact recounted.remembers l below
  · simp only [List.mem_append, List.mem_singleton]
    rintro t' (inside | rfl)
    · exact recounted.known t' inside
    · exact admits.known
  · simp only [List.mem_append, List.mem_singleton]
    rintro t' (inside | rfl)
    · exact recounted.taken t' inside
    · exact admits.taken
  · rcases List.eq_nil_or_concat late with rfl | ⟨late, last, rfl⟩
    · obtain ⟨rfl, last⟩ := List.append_inj' same rfl
      obtain rfl := List.singleton_inj.mp last
      exact found
    · rw [List.concat_eq_append, ← List.cons_append, ← List.append_assoc] at same
      exact recounted.before early t' late (List.append_inj' same rfl).1

theorem leads (recounted : Recounted depth log p) (pos : 0 < depth) {later : List Advance}
    (leads : p.Leads later q) : Recounted depth (log ++ later) q := by
  induction leads generalizing log with
  | nil p =>
    rw [List.append_nil]
    exact recounted
  | cons admits _ ih =>
    rw [List.append_cons]
    exact ih (recounted.advance pos admits)

/-- A lock that has just been made. -/
theorem extend (recounted : Recounted depth log p) (pos : 0 < depth) (size : q.size = p.size + 1)
    (old : ∀ l < p.size, q.of l = p.of l) (new : q.of p.size = ⟨.new, .start depth⟩) :
    Recounted depth log q := by
  have fresh : course log p.size = [.new] :=
    course_of_not_mem fun t inside => Nat.ne_of_lt (recounted.known t inside)
  refine ⟨fun l below => ?_, fun l below => ?_, fun t inside => ?_, recounted.taken,
    recounted.before⟩
  · rw [size] at below
    rcases Nat.lt_succ_iff_lt_or_eq.mp below with before | rfl
    · exact recounted.legal l before
    · exact fresh ▸ .start
  · rw [size] at below
    rcases Nat.lt_succ_iff_lt_or_eq.mp below with before | rfl
    · rw [old l before]
      exact recounted.remembers l before
    · rw [new, fresh]
      exact .start depth pos
  · exact size ▸ Nat.lt_succ_of_lt (recounted.known t inside)

end Recounted

end Stations

end LockManager
