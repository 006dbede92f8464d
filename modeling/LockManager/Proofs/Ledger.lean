import LockManager.Namespace
import LockManager.Proofs.Queues
import Mathlib.Data.List.Nodup
import Mathlib.Logic.Function.Basic

set_option autoImplicit false

/-!
The ledger of a namespace: its locks and queues without the messages. Every change of it concerns
one lock and that lock's entries. A ledger is coherent when each lock has exactly the entries that
its state asks for, on the resource it is bound to, and no two granted entries stand against each
other.
-/

namespace LockManager

namespace LockState

variable {s s' : LockState}

/-! ### The edges to a state -/

theorem allows_enqueued_iff : s.allows .enqueued = true ↔ s = .new := by
  cases s <;> decide

theorem allows_waiting_iff : s.allows .waiting = true ↔ s = .enqueued := by
  cases s <;> decide

theorem allows_granted_iff :
    s.allows .granted = true ↔ s = .enqueued ∨ s = .waiting ∨ s = .converting := by
  cases s <;> decide

theorem allows_converting_iff : s.allows .converting = true ↔ s = .granted := by
  cases s <;> decide

theorem allows_canceling_iff : s.allows .canceling = true ↔ s.leaving = false := by
  cases s <;> decide

/-- An edge of the life cycle that does not lead to a cancel does not come from one. -/
theorem stays_of_allows (edge : s.allows s' = true) (stays : s'.leaving = false) :
    s.leaving = false := by
  revert edge stays
  cases s <;> cases s' <;> decide

end LockState

namespace Lock

/-- The lock without what it has been sent. -/
def outline (l : Lock) : Lock :=
  { l with
    blockingSent := false
    blockingSentAt := none
    timeoutReported := false
    suppressed := false
    pending := []
    scheduled := false }

/-- Takes an edge of the life cycle. -/
def enter (l : Lock) (s : LockState) : Lock := { l with state := s, history := l.history.push s }

theorem advance?_of_allows {l : Lock} {s : LockState} (edge : l.state.allows s = true) :
    l.advance? s = some (l.enter s) := by
  simp only [advance?, edge, if_true, enter]

theorem advance?_of_not_allows {l : Lock} {s : LockState} (none : ¬l.state.allows s = true) :
    l.advance? s = .none := if_neg none

/-- Wants another mode, and has not been passed over for it yet. -/
def ask (l : Lock) (mode : Mode) : Lock :=
  { l.enter .converting with requestedMode := mode, bypassed := 0 }

/-- Has given back what it had. -/
def release (l : Lock) : Lock := { l.enter .canceled with grantedMode := none }

@[simp] theorem outline_claim (l : Lock) : l.outline.claim = l.claim := rfl
@[simp] theorem outline_state (l : Lock) : l.outline.state = l.state := rfl
@[simp] theorem outline_resource (l : Lock) : l.outline.resource = l.resource := rfl

end Lock

/-- The entries that a lock has in its state. A lock on its way out keeps those it had. -/
inductive Seat (claim : Claim) : LockState → Mode → Option Mode → Queues → Prop where
  | new {wanted} : Seat claim .new wanted none {}
  | enqueued {wanted} : Seat claim .enqueued wanted none {}
  | waiting {wanted} : Seat claim .waiting wanted none { waiting := [⟨claim, wanted⟩] }
  | granted {held} : Seat claim .granted held (some held) { granted := [⟨claim, held⟩] }
  | converting {wanted held} (up : held.raises wanted = true) :
      Seat claim .converting wanted (some held)
        { granted := [⟨claim, held⟩], converting := [⟨claim, wanted⟩] }
  | canceling {before wanted held own} (had : Seat claim before wanted held own) :
      Seat claim .canceling wanted held own
  | canceled {wanted} : Seat claim .canceled wanted none {}

namespace Seat

variable {claim : Claim} {state : LockState} {wanted : Mode} {held : Option Mode} {own : Queues}

theorem claim_eq (seat : Seat claim state wanted held own) {e : Entry} (inside : e ∈ own.entries) :
    e.claim = claim := by
  induction seat with
  | canceling _ ih => exact ih inside
  | converting _ =>
    simp only [Queues.mem_entries, List.mem_singleton, List.not_mem_nil, or_false] at inside
    rcases inside with rfl | rfl <;> rfl
  | _ => simp_all

theorem of_new (seat : Seat claim .new wanted held own) : held = none ∧ own = {} := by
  cases seat
  exact ⟨rfl, rfl⟩

theorem of_enqueued (seat : Seat claim .enqueued wanted held own) : held = none ∧ own = {} := by
  cases seat
  exact ⟨rfl, rfl⟩

theorem of_canceled (seat : Seat claim .canceled wanted held own) : held = none ∧ own = {} := by
  cases seat
  exact ⟨rfl, rfl⟩

theorem of_state_waiting (seat : Seat claim .waiting wanted held own) :
    held = none ∧ own = { waiting := [⟨claim, wanted⟩] } := by
  cases seat
  exact ⟨rfl, rfl⟩

theorem of_state_granted (seat : Seat claim .granted wanted held own) :
    held = some wanted ∧ own = { granted := [⟨claim, wanted⟩] } := by
  cases seat
  exact ⟨rfl, rfl⟩

theorem of_state_converting (seat : Seat claim .converting wanted held own) :
    ∃ old, held = some old ∧ old.raises wanted = true ∧
      own = { granted := [⟨claim, old⟩], converting := [⟨claim, wanted⟩] } := by
  cases seat with
  | converting up => exact ⟨_, rfl, up, rfl⟩

/-- A lock has no two entries in a queue. -/
theorem single (seat : Seat claim state wanted held own) :
    own.granted.length ≤ 1 ∧ own.converting.length ≤ 1 := by
  induction seat with
  | canceling _ ih => exact ih
  | _ => simp

theorem of_granted (seat : Seat claim state wanted held own) {e : Entry}
    (inside : e ∈ own.granted) :
    held = some e.mode ∧ own.granted = [e] := by
  induction seat with
  | canceling _ ih => exact ih inside
  | _ => simp_all

theorem of_converting (seat : Seat claim state wanted held own) {e : Entry}
    (inside : e ∈ own.converting) (stays : state.leaving = false) :
    state = .converting ∧ e.mode = wanted ∧
      ∃ old, held = some old ∧ old.raises wanted = true ∧ (⟨claim, old⟩ : Entry) ∈ own.granted := by
  cases seat with
  | converting up => simp_all
  | canceling _ => simp [LockState.leaving] at stays
  | _ => simp at inside

theorem of_waiting (seat : Seat claim state wanted held own) {e : Entry}
    (inside : e ∈ own.waiting) (stays : state.leaving = false) :
    state = .waiting ∧ e.mode = wanted := by
  cases seat with
  | waiting => simp_all
  | canceling _ => simp [LockState.leaving] at stays
  | _ => simp at inside

end Seat

/-- The entries are those that the lock has in its state. -/
def Lock.Seated (x : Lock) (own : Queues) : Prop :=
  Seat x.claim x.state x.requestedMode x.grantedMode own

structure Ledger where
  config : Config
  size : Nat
  lock : LockId → Lock
  queues : ResourceId → Queues

namespace Ledger

/-- The queues of the resource that a lock is bound to. -/
def home (b : Ledger) (l : LockId) : Queues := b.queues (b.lock l).resource

/-- A granted lock on the same resource stands against `l` in `mode`. -/
def opposed (b : Ledger) (l : LockId) (mode : Mode) : Bool :=
  (b.home l).granted.any (·.opposes (b.lock l).claim mode)

theorem opposed_eq_false {b : Ledger} {l : LockId} {mode : Mode} :
    b.opposed l mode = false ↔
      ∀ e ∈ (b.home l).granted, e.opposes (b.lock l).claim mode = false := by
  simp [opposed]

/-! ### Changes -/

def set (b : Ledger) (l : LockId) (x : Lock) : Ledger :=
  { b with lock := Function.update b.lock l x }

/-- Changes a lock and its entries. -/
def seat (b : Ledger) (l : LockId) (x : Lock) (q : Queues) : Ledger :=
  { b with
    lock := Function.update b.lock l x
    queues := Function.update b.queues (b.lock l).resource q }

theorem set_eq_seat (b : Ledger) (l : LockId) (x : Lock) : b.set l x = b.seat l x (b.home l) := by
  simp only [set, seat, home, Function.update_eq_self]

theorem lock_set_self (b : Ledger) (l : LockId) (x : Lock) : (b.set l x).lock l = x :=
  Function.update_self ..

theorem lock_set_of_ne (b : Ledger) {k l : LockId} (x : Lock) (other : k ≠ l) :
    (b.set l x).lock k = b.lock k :=
  Function.update_of_ne other ..

theorem lock_seat_self (b : Ledger) (l : LockId) (x : Lock) (q : Queues) :
    (b.seat l x q).lock l = x :=
  Function.update_self ..

theorem lock_seat_of_ne (b : Ledger) {k l : LockId} (x : Lock) (q : Queues) (other : k ≠ l) :
    (b.seat l x q).lock k = b.lock k :=
  Function.update_of_ne other ..

theorem queues_seat_self (b : Ledger) (l : LockId) (x : Lock) (q : Queues) :
    (b.seat l x q).queues (b.lock l).resource = q :=
  Function.update_self ..

theorem queues_seat_of_ne (b : Ledger) {l : LockId} (x : Lock) (q : Queues) {r : ResourceId}
    (other : r ≠ (b.lock l).resource) : (b.seat l x q).queues r = b.queues r :=
  Function.update_of_ne other ..

theorem home_set (b : Ledger) {l : LockId} {x : Lock} (bound : x.resource = (b.lock l).resource) :
    (b.set l x).home l = b.home l := by
  rw [home, lock_set_self, bound]
  rfl

/-- Of two changes of one lock the later one counts. -/
theorem seat_set (b : Ledger) {l : LockId} {x y : Lock} (q : Queues)
    (bound : x.resource = (b.lock l).resource) : (b.set l x).seat l y q = b.seat l y q := by
  simp only [seat, set, Function.update_self, Function.update_idem, bound]

def accept (b : Ledger) (l : LockId) : Ledger :=
  let x := b.lock l
  b.seat l ((x.enter .granted).hold x.requestedMode)
    ((b.home l).addGranted ⟨x.claim, x.requestedMode⟩)

def wait (b : Ledger) (l : LockId) : Ledger :=
  let x := b.lock l
  b.seat l (x.enter .waiting) ((b.home l).addWaiting ⟨x.claim, x.requestedMode⟩)

def serve (b : Ledger) (l : LockId) : Ledger :=
  let x := b.lock l
  b.seat l ((x.enter .granted).hold x.requestedMode)
    (((b.home l).dropWaiting l).addGranted ⟨x.claim, x.requestedMode⟩)

def pend (b : Ledger) (l : LockId) (mode : Mode) : Ledger :=
  let x := b.lock l
  b.seat l (x.ask mode) ((b.home l).addConverting ⟨x.claim, mode⟩)

/-- Converts at once. -/
def switch (b : Ledger) (l : LockId) (mode : Mode) : Ledger :=
  b.seat l ((((b.lock l).ask mode).enter .granted).hold mode) ((b.home l).setGrantedMode l mode)

/-- Completes a pending conversion. -/
def complete (b : Ledger) (l : LockId) : Ledger :=
  let x := b.lock l
  b.seat l ((x.enter .granted).hold x.requestedMode)
    (((b.home l).dropConverting l).setGrantedMode l x.requestedMode)

def leave (b : Ledger) (l : LockId) : Ledger :=
  b.seat l (b.lock l).release ((b.home l).remove l)

def pass (b : Ledger) (l : LockId) : Ledger := b.set l (b.lock l).passOver

/-- A new lock. -/
def extend (b : Ledger) (x : Lock) : Ledger :=
  { b with size := b.size + 1, lock := Function.update b.lock b.size x }

/-! ### Coherence -/

structure Coherent (b : Ledger) : Prop where
  named : ∀ l, l < b.size → (b.lock l).claim.id = l
  valid : ∀ l, l < b.size → (b.lock l).claim.policy.fault? = none
  known : ∀ r, ∀ e ∈ (b.queues r).entries, e.claim.id < b.size
  seated : ∀ l, l < b.size → (b.lock l).Seated ((b.home l).of l)
  elsewhere : ∀ l, l < b.size → ∀ r, r ≠ (b.lock l).resource → (b.queues r).of l = {}
  ordered : ∀ r, (b.queues r).Ordered
  apart : ∀ r, (b.queues r).Apart

namespace Coherent

variable {b : Ledger}

/-- Whoever has an entry is bound to the resource, and the entry is made out to its claim. -/
theorem bound (c : b.Coherent) {r : ResourceId} {e : Entry} (inside : e ∈ (b.queues r).entries) :
    (b.lock e.claim.id).resource = r := by
  by_contra apart
  exact Queues.not_mem_of_empty (c.elsewhere _ (c.known r e inside) r (Ne.symm apart)) inside rfl

theorem home_eq (c : b.Coherent) {r : ResourceId} {e : Entry} (inside : e ∈ (b.queues r).entries) :
    b.home e.claim.id = b.queues r := by
  rw [home, c.bound inside]

theorem seat_of_mem (c : b.Coherent) {r : ResourceId} {e : Entry}
    (inside : e ∈ (b.queues r).entries) :
    (b.lock e.claim.id).Seated ((b.queues r).of e.claim.id) := by
  rw [← c.home_eq inside]
  exact c.seated _ (c.known r e inside)

theorem claim_eq (c : b.Coherent) {r : ResourceId} {e : Entry} (inside : e ∈ (b.queues r).entries) :
    e.claim = (b.lock e.claim.id).claim :=
  (c.seat_of_mem inside).claim_eq (Queues.mem_entries_of.mpr ⟨inside, rfl⟩)

theorem of_waiting (c : b.Coherent) {r : ResourceId} {e : Entry} (inside : e ∈ (b.queues r).waiting)
    (stays : (b.lock e.claim.id).state.leaving = false) :
    (b.lock e.claim.id).state = .waiting ∧
      e = ⟨(b.lock e.claim.id).claim, (b.lock e.claim.id).requestedMode⟩ := by
  have place : e ∈ (b.queues r).entries := Queues.mem_entries.mpr (.inr inside)
  obtain ⟨state, mode⟩ := (c.seat_of_mem place).of_waiting (Queues.mem_waiting_of.mpr ⟨inside, rfl⟩)
    stays
  refine ⟨state, ?_⟩
  rw [← c.claim_eq place, ← mode]

theorem of_converting (c : b.Coherent) {r : ResourceId} {e : Entry}
    (inside : e ∈ (b.queues r).converting)
    (stays : (b.lock e.claim.id).state.leaving = false) :
    (b.lock e.claim.id).state = .converting ∧
      e = ⟨(b.lock e.claim.id).claim, (b.lock e.claim.id).requestedMode⟩ ∧
      ∃ old, old.raises e.mode = true ∧ (⟨e.claim, old⟩ : Entry) ∈ (b.queues r).granted := by
  have place : e ∈ (b.queues r).entries := Queues.mem_entries.mpr (.inl (.inr inside))
  obtain ⟨state, mode, old, -, up, also⟩ :=
    (c.seat_of_mem place).of_converting (Queues.mem_converting_of.mpr ⟨inside, rfl⟩) stays
  rw [← c.claim_eq place] at also ⊢
  refine ⟨state, ?_, old, mode ▸ up, (Queues.mem_granted_of.mp also).1⟩
  rw [← mode]

theorem of_granted (c : b.Coherent) {r : ResourceId} {e : Entry}
    (inside : e ∈ (b.queues r).granted) :
    (b.lock e.claim.id).grantedMode = some e.mode ∧ ((b.queues r).of e.claim.id).granted = [e] :=
  (c.seat_of_mem (Queues.mem_entries.mpr (.inl (.inl inside)))).of_granted
    (Queues.mem_granted_of.mpr ⟨inside, rfl⟩)

theorem single (c : b.Coherent) (r : ResourceId) (l : LockId) :
    ((b.queues r).of l).granted.length ≤ 1 ∧ ((b.queues r).of l).converting.length ≤ 1 := by
  by_cases present : ∃ e ∈ (b.queues r).entries, e.claim.id = l
  · obtain ⟨e, inside, rfl⟩ := present
    exact (c.seat_of_mem inside).single
  · have none : ∀ e ∈ (b.queues r).entries, ¬(e.claim.id == l) = true := by
      intro e inside same
      exact present ⟨e, inside, beq_iff_eq.mp same⟩
    simp only [Queues.mem_entries] at none
    simp only [Queues.of]
    rw [List.filter_eq_nil_iff.mpr fun e inside => none e (.inl (.inl inside)),
      List.filter_eq_nil_iff.mpr fun e inside => none e (.inl (.inr inside))]
    exact ⟨Nat.zero_le _, Nat.zero_le _⟩

theorem distinct_granted (c : b.Coherent) (r : ResourceId) :
    (b.queues r).granted.Pairwise (·.claim.id ≠ ·.claim.id) :=
  Queues.distinct_of_few fun l => (c.single r l).1

theorem distinct_converting (c : b.Coherent) (r : ResourceId) :
    (b.queues r).converting.Pairwise (·.claim.id ≠ ·.claim.id) :=
  Queues.distinct_of_few fun l => (c.single r l).2

/-- A change of mode that nothing stands against leaves the granted locks apart. -/
theorem apart_setGrantedMode (c : b.Coherent) {l : LockId} {mode : Mode} (known : l < b.size)
    (free : b.opposed l mode = false) : ((b.home l).setGrantedMode l mode).Apart := by
  have named := c.named l known
  have mine : ∀ e ∈ (b.home l).granted, e.claim.id = (b.lock l).claim.id →
      e.claim = (b.lock l).claim := by
    intro e inside same
    rw [c.claim_eq (r := (b.lock l).resource) (Queues.mem_entries.mpr (.inl (.inl inside))), same,
      named]
  have set := Queues.apart_setGrantedMode (c.apart (b.lock l).resource) mine
    (opposed_eq_false.mp free)
  rwa [named] at set

/-- A lock without entries is bound to nothing that a change of queues could concern. -/
theorem home_of_empty (c : b.Coherent) {l : LockId} (known : l < b.size)
    (none : (b.home l).of l = {}) (r : ResourceId) : (b.queues r).of l = {} := by
  by_cases here : r = (b.lock l).resource
  · rw [here]
    exact none
  · exact c.elsewhere l known r here

end Coherent

end Ledger
end LockManager
