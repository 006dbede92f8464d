import Mathlib.Data.List.Range
import LockManager.HandleTable.Churn
import LockManager.Proofs.HandleTable

set_option autoImplicit false

/-!
What a table of handles still knows about its past. A slot goes through its generations one after the
other, so how often it has been freed says which of its handles have been issued and which removed.
That lasts until the slot has been freed as often as there are generations: from then on handles come
again.
-/

namespace LockManager

theorem toNat_generationAfter (n : Nat) : (generationAfter n).toNat = n % generations + 1 := by
  apply UInt32.toNat_ofNat_of_lt'
  have : n % generations < generations := Nat.mod_lt n (by decide)
  simp only [generations, UInt32.size] at this ⊢
  omega

theorem generationAfter_ne_zero (n : Nat) : generationAfter n ≠ 0 := by
  intro zero
  have := congrArg UInt32.toNat zero
  rw [toNat_generationAfter] at this
  cases this

theorem nextGeneration_generationAfter (n : Nat) :
    nextGeneration (generationAfter n) = generationAfter (n + 1) := by
  have value := toNat_generationAfter n
  have next := toNat_generationAfter (n + 1)
  simp only [generations, UInt32.size] at value next
  have wraps : generationAfter n + 1 = 0 ↔ n % 4294967295 + 1 = 4294967295 := by
    rw [← UInt32.toNat_inj, UInt32.toNat_add, value, UInt32.toNat_one, UInt32.toNat_zero]
    omega
  apply UInt32.toNat_inj.1
  rw [next, nextGeneration]
  split_ifs with last
  · have := wraps.1 last
    rw [UInt32.toNat_one]
    omega
  · have := mt wraps.2 last
    rw [UInt32.toNat_add, value, UInt32.toNat_one]
    omega

theorem generationAfter_injOn {m n : Nat} (below : m < generations) (below' : n < generations)
    (same : generationAfter m = generationAfter n) : m = n := by
  have values := congrArg UInt32.toNat same
  rw [toNat_generationAfter, toNat_generationAfter, Nat.mod_eq_of_lt below,
    Nat.mod_eq_of_lt below'] at values
  exact Nat.succ_injective values

/-- The generations before a slot's own are those that it has gone through. -/
theorem exists_generationAfter_iff {n : Nat} (few : n < generations) {g : UInt32} :
    (∃ k < n, generationAfter k = g) ↔ g ≠ 0 ∧ g < generationAfter n := by
  rw [UInt32.lt_iff_toNat_lt, toNat_generationAfter, Nat.mod_eq_of_lt few, ne_eq,
    ← UInt32.toNat_inj]
  constructor
  · rintro ⟨k, before, rfl⟩
    rw [toNat_generationAfter, Nat.mod_eq_of_lt (before.trans few)]
    exact ⟨Nat.succ_ne_zero k, Nat.succ_lt_succ before⟩
  · rintro ⟨issued, before⟩
    have issued : g.toNat ≠ 0 := issued
    refine ⟨g.toNat - 1, by omega, UInt32.toNat_inj.1 ?_⟩
    rw [toNat_generationAfter, Nat.mod_eq_of_lt (by omega)]
    omega

namespace HandleTable

inductive Call (α : Type) where
  | insert (build : Handle → α)
  | remove (h : Handle)

/-- A table, and what calls have done to it. -/
structure History (α : Type) where
  table : HandleTable α := {}
  /-- With the entries that were built for them. -/
  issued : List (Handle × α) := []
  removed : List Handle := []

variable {α : Type}

namespace History

def call (s : History α) : Call α → History α
  | .insert build =>
    { s with
      table := s.table.insertWith build
      issued := s.issued ++ [(s.table.upcoming, build s.table.upcoming)] }
  | .remove h =>
    { s with
      table := s.table.remove h
      removed := if (s.table.get? h).isSome then s.removed ++ [h] else s.removed }

/-- What the calls do to an empty table. -/
def of (calls : List (Call α)) : History α := calls.foldl call {}

theorem of_append (calls later : List (Call α)) : of (calls ++ later) = later.foldl call (of calls) :=
  List.foldl_append

variable {s : History α} {i : UInt32} {h : Handle}

theorem size_le_call (s : History α) (c : Call α) :
    s.table.slots.size ≤ (s.call c).table.slots.size := by
  cases c with
  | insert build => exact size_le_insertWith build
  | remove h => exact Nat.le_of_eq (size_remove h).symm

theorem size_le_foldl (s : History α) (calls : List (Call α)) :
    s.table.slots.size ≤ (calls.foldl call s).table.slots.size := by
  induction calls generalizing s with
  | nil => exact Nat.le_refl _
  | cons c calls ih => exact (s.size_le_call c).trans (ih (s.call c))

theorem issued_prefix_foldl (s : History α) (calls : List (Call α)) :
    s.issued <+: (calls.foldl call s).issued := by
  induction calls generalizing s with
  | nil => exact List.prefix_rfl
  | cons c calls ih =>
    refine List.IsPrefix.trans ?_ (ih (s.call c))
    cases c with
    | insert build => exact List.prefix_append _ _
    | remove h => exact List.prefix_rfl

theorem removed_prefix_foldl (s : History α) (calls : List (Call α)) :
    s.removed <+: (calls.foldl call s).removed := by
  induction calls generalizing s with
  | nil => exact List.prefix_rfl
  | cons c calls ih =>
    refine List.IsPrefix.trans ?_ (ih (s.call c))
    cases c with
    | insert build => exact List.prefix_rfl
    | remove h =>
      simp only [call]
      split
      · exact List.prefix_append _ _
      · exact List.prefix_rfl

/-! ### One slot -/

/-- The handle that slot `i` gives out when it has been freed `n` times. -/
def handleAt (i : UInt32) (n : Nat) : Handle := ⟨i, generationAfter n⟩

def issuedAt (s : History α) (i : UInt32) : List (Handle × α) := s.issued.filter (·.1.index = i)

def removedAt (s : History α) (i : UInt32) : List Handle := s.removed.filter (·.index = i)

/-- A slot gives out its handles in order, each after the one before has been removed. -/
inductive Slotted (s : History α) (i : UInt32) : Prop where
  | unused (slot : s.table.slots[i.toNat]? = none) (issued : s.issuedAt i = [])
      (removed : s.removedAt i = [])
  | empty (n : Nat) (slot : s.table.slots[i.toNat]? = some ⟨generationAfter n, none⟩)
      (issued : (s.issuedAt i).map Prod.fst = (List.range n).map (handleAt i))
      (removed : s.removedAt i = (List.range n).map (handleAt i))
  | occupied (n : Nat) (v : α) (before : List (Handle × α))
      (slot : s.table.slots[i.toNat]? = some ⟨generationAfter n, some v⟩)
      (issued : s.issuedAt i = before ++ [(handleAt i n, v)])
      (earlier : before.map Prod.fst = (List.range n).map (handleAt i))
      (removed : s.removedAt i = (List.range n).map (handleAt i))

/-- How often slot `i` has been freed. -/
def frees (s : History α) (i : UInt32) : Nat := (s.removedAt i).length

theorem Slotted.congr {s' : History α} (slotted : s.Slotted i)
    (slot : s'.table.slots[i.toNat]? = s.table.slots[i.toNat]?)
    (issued : s'.issuedAt i = s.issuedAt i) (removed : s'.removedAt i = s.removedAt i) :
    s'.Slotted i := by
  cases slotted with
  | unused slot' issued' removed' =>
    exact .unused (slot.trans slot') (issued.trans issued') (removed.trans removed')
  | empty n slot' issued' removed' =>
    exact .empty n (slot.trans slot') (issued ▸ issued') (removed.trans removed')
  | occupied n v before slot' issued' earlier removed' =>
    exact .occupied n v before (slot.trans slot') (issued.trans issued') earlier
      (removed.trans removed')

/-- The slot of the handle that comes next is new, or has been freed. -/
theorem upcoming_slot {t : HandleTable α} (proper : t.Proper)
    (room : t.free = [] → t.slots.size < UInt32.size) :
    t.slots[t.upcoming.index.toNat]? = none ∧ t.upcoming.generation = 1 ∨
      t.slots[t.upcoming.index.toNat]? = some ⟨t.upcoming.generation, none⟩ := by
  cases free : t.free with
  | nil =>
    have number : t.upcoming = ⟨UInt32.ofNat t.slots.size, 1⟩ := by
      simp only [upcoming, free]
    have small : (UInt32.ofNat t.slots.size).toNat = t.slots.size :=
      UInt32.toNat_ofNat_of_lt' (room free)
    simp [number, small]
  | cons index rest =>
    obtain ⟨g, empty⟩ := proper.empty index (free ▸ List.mem_cons_self)
    have number : t.upcoming = ⟨index, g⟩ := by
      simp only [upcoming, free, Array.getD_eq_getD_getElem?, empty, Option.getD_some]
    exact .inr (number ▸ empty)

theorem Slotted.insert {build : Handle → α} (slotted : s.Slotted i) (proper : s.table.Proper)
    (room : (s.table.insertWith build).slots.size ≤ UInt32.size) :
    (s.call (.insert build)).Slotted i := by
  have slots := getElem?_insertWith proper room i.toNat
  by_cases here : i = s.table.upcoming.index
  · have slot : (s.call (.insert build)).table.slots[i.toNat]?
        = some ⟨s.table.upcoming.generation, some (build s.table.upcoming)⟩ := by
      exact slots.trans (if_pos (congrArg UInt32.toNat here))
    have issued : (s.call (.insert build)).issuedAt i
        = s.issuedAt i ++ [(s.table.upcoming, build s.table.upcoming)] := by
      simp [issuedAt, call, here]
    have number : ∀ n, s.table.upcoming.generation = generationAfter n →
        s.table.upcoming = handleAt i n := by
      intro n generation
      rw [handleAt, here, ← generation]
    have next := upcoming_slot proper (room_of_insertWith room)
    rw [← here] at next
    cases slotted with
    | unused vacant issued' removed =>
      have first : s.table.upcoming.generation = 1 := by
        rcases next with ⟨-, first⟩ | freed
        · exact first
        · rw [vacant] at freed
          cases freed
      refine .occupied 0 _ [] (first ▸ slot) ?_ rfl removed
      rw [issued, issued', ← number 0 first]
    | empty n vacant issued' removed =>
      have generation : s.table.upcoming.generation = generationAfter n := by
        rcases next with ⟨unused, -⟩ | freed
        · rw [vacant] at unused
          cases unused
        · rw [vacant] at freed
          exact (congrArg Slot.generation (Option.some.inj freed)).symm
      refine .occupied n _ (s.issuedAt i) (generation ▸ slot) ?_ issued' removed
      rw [issued, ← number n generation]
    | occupied n v before taken _ _ _ =>
      rw [here] at taken
      exact absurd taken (getElem?_upcoming proper (room_of_insertWith room))
  · have elsewhere : i.toNat ≠ s.table.upcoming.index.toNat := fun same =>
      here (UInt32.toNat_inj.1 same)
    apply slotted.congr
    · exact slots.trans (if_neg elsewhere)
    · simp [issuedAt, call, Ne.symm here]
    · rfl

theorem Slotted.remove (slotted : s.Slotted i) (h : Handle) : (s.call (.remove h)).Slotted i := by
  have slots := getElem?_remove (t := s.table) h i.toNat
  by_cases here : (s.table.get? h).isSome ∧ i = h.index
  · obtain ⟨live, rfl⟩ := here
    obtain ⟨v, found⟩ := Option.isSome_iff_exists.1 live
    have taken := get?_eq_some.1 found
    have removed : (s.call (.remove h)).removedAt h.index = s.removedAt h.index ++ [h] := by
      simp [removedAt, call, live]
    cases slotted with
    | unused vacant _ _ =>
      rw [taken] at vacant
      cases vacant
    | empty n vacant _ _ =>
      rw [taken] at vacant
      cases congrArg Slot.entry (Option.some.inj vacant)
    | occupied n v' before occupied issued earlier removed' =>
      have generation : h.generation = generationAfter n := by
        rw [taken] at occupied
        exact congrArg Slot.generation (Option.some.inj occupied)
      have number : handleAt h.index n = h := by
        rw [handleAt, ← generation]
      refine .empty (n + 1) ?_ ?_ ?_
      · rw [← nextGeneration_generationAfter, ← generation]
        exact slots.trans (if_pos ⟨live, rfl⟩)
      · rw [List.range_succ, List.map_append, ← earlier]
        exact (congrArg (List.map Prod.fst) issued).trans (List.map_append ..)
      · rw [removed, removed', List.range_succ, List.map_append, List.map_singleton, number]
  · have elsewhere : ¬((s.table.get? h).isSome ∧ i.toNat = h.index.toNat) := by
      rwa [UInt32.toNat_inj]
    apply slotted.congr
    · exact slots.trans (if_neg elsewhere)
    · rfl
    · simp only [removedAt, call]
      split
      · next live => simp [Ne.symm fun same => here ⟨live, same⟩]
      · rfl

theorem proper_call (proper : s.table.Proper) (c : Call α)
    (room : (s.call c).table.slots.size ≤ UInt32.size) : (s.call c).table.Proper := by
  cases c with
  | insert build => exact proper.insertWith room
  | remove h => exact proper.remove h

/-- Whatever the calls, as long as slot numbers fit a handle. -/
theorem slotted_of (calls : List (Call α)) (room : (of calls).table.slots.size ≤ UInt32.size) :
    (of calls).table.Proper ∧ ∀ i, (of calls).Slotted i := by
  induction calls using List.reverseRecOn with
  | nil => exact ⟨proper_empty, fun i => .unused rfl rfl rfl⟩
  | append_singleton calls c ih =>
    rw [of_append, List.foldl_cons, List.foldl_nil] at room ⊢
    obtain ⟨proper, slotted⟩ := ih ((size_le_call (of calls) c).trans room)
    refine ⟨proper_call proper c room, fun i => ?_⟩
    cases c with
    | insert build => exact (slotted i).insert proper room
    | remove h => exact (slotted i).remove h

/-! ### What the status of a handle says -/

/-- The status of the handle says what has become of it. -/
structure Tells (s : History α) (h : Handle) : Prop where
  live : ∀ v, s.table.status h = .live v ↔ (h, v) ∈ s.issued ∧ h ∉ s.removed
  retired : s.table.status h = .retired ↔ (∃ v, (h, v) ∈ s.issued) ∧ h ∈ s.removed
  unknown : s.table.status h = .unknown ↔ ∀ v, (h, v) ∉ s.issued

theorem mem_issuedAt_iff {v : α} : (h, v) ∈ s.issuedAt h.index ↔ (h, v) ∈ s.issued := by
  simp [issuedAt]

theorem mem_removedAt_iff : h ∈ s.removedAt h.index ↔ h ∈ s.removed := by
  simp [removedAt]

/-- The slot has gone through the handle's generation before its own. -/
def Past (h : Handle) (n : Nat) : Prop := h.generation ≠ 0 ∧ h.generation < generationAfter n

instance (h : Handle) (n : Nat) : Decidable (Past h n) := inferInstanceAs (Decidable (_ ∧ _))

theorem mem_handles_iff {n : Nat} (few : n < generations) :
    h ∈ (List.range n).map (handleAt h.index) ↔ Past h n := by
  rw [Past, ← exists_generationAfter_iff few]
  simp only [List.mem_map, List.mem_range]
  constructor
  · rintro ⟨k, before, same⟩
    exact ⟨k, before, congrArg Handle.generation same⟩
  · rintro ⟨k, before, same⟩
    refine ⟨k, before, ?_⟩
    rw [handleAt, same]

theorem status_of_slot {t : HandleTable α} {n : Nat} {entry : Option α}
    (slot : t.slots[h.index.toNat]? = some ⟨generationAfter n, entry⟩) :
    t.status h =
      if generationAfter n = h.generation then entry.elim .unknown .live
      else if Past h n then .retired else .unknown := by
  simp only [status, slot, Past]
  by_cases own : generationAfter n = h.generation
  · have issued : h.generation ≠ 0 := own ▸ generationAfter_ne_zero n
    rw [if_neg issued, if_pos own, if_pos own]
    cases entry <;> rfl
  · by_cases none : h.generation = 0
    · simp [none, generationAfter_ne_zero n]
    · simp [none, own]

theorem Tells.of_live {v : α} (status : s.table.status h = .live v)
    (given : ∀ w, (h, w) ∈ s.issued ↔ w = v) (stays : h ∉ s.removed) : s.Tells h := by
  constructor
  · intro w
    simp [status, given, stays, eq_comm]
  · simp [status, stays]
  · simp [status, given]

theorem Tells.of_retired {v : α} (status : s.table.status h = .retired)
    (given : (h, v) ∈ s.issued) (gone : h ∈ s.removed) : s.Tells h := by
  constructor
  · simp [status, gone]
  · simp only [status, gone, and_true, true_iff]
    exact ⟨v, given⟩
  · simp only [status, reduceCtorEq, false_iff, not_forall, not_not]
    exact ⟨v, given⟩

theorem Tells.of_unknown (status : s.table.status h = .unknown)
    (never : ∀ v, (h, v) ∉ s.issued) : s.Tells h := by
  constructor <;> simp [status, never]

theorem mem_removed_iff {n : Nat} (few : n < generations)
    (removed : s.removedAt h.index = (List.range n).map (handleAt h.index)) :
    h ∈ s.removed ↔ Past h n := by
  rw [← mem_removedAt_iff, removed, mem_handles_iff few]

theorem Tells.of_past {n : Nat} {entry : Option α} {v : α}
    (slot : s.table.slots[h.index.toNat]? = some ⟨generationAfter n, entry⟩) (past : Past h n)
    (given : (h, v) ∈ s.issued) (gone : h ∈ s.removed) : s.Tells h := by
  have other : generationAfter n ≠ h.generation := (UInt32.ne_of_lt past.2).symm
  have status := status_of_slot slot
  rw [if_neg other, if_pos past] at status
  exact .of_retired status given gone

theorem Slotted.tells (slotted : s.Slotted h.index) (few : s.frees h.index < generations) :
    s.Tells h := by
  cases slotted with
  | unused slot issued removed =>
    apply Tells.of_unknown
    · simp [HandleTable.status, slot]
    · intro v known
      rw [← mem_issuedAt_iff, issued] at known
      cases known
  | empty n slot issued removed =>
    rw [frees, removed, List.length_map, List.length_range] at few
    have given : (∃ v, (h, v) ∈ s.issued) ↔ Past h n := by
      rw [← mem_handles_iff few, ← issued]
      simp [mem_issuedAt_iff]
    by_cases past : Past h n
    · obtain ⟨v, known⟩ := given.2 past
      exact .of_past slot past known ((mem_removed_iff few removed).2 past)
    · refine .of_unknown ?_ fun v known => past (given.1 ⟨v, known⟩)
      rw [status_of_slot slot, if_neg past]
      split <;> rfl
  | occupied n v before slot issued earlier removed =>
    rw [frees, removed, List.length_map, List.length_range] at few
    have given : ∀ w, (h, w) ∈ s.issued ↔ (h, w) ∈ before ∨ h = handleAt h.index n ∧ w = v := by
      intro w
      rw [← mem_issuedAt_iff, issued]
      simp
    have first : (∃ w, (h, w) ∈ before) ↔ Past h n := by
      rw [← mem_handles_iff few, ← earlier]
      simp
    by_cases past : Past h n
    · obtain ⟨w, known⟩ := first.2 past
      exact .of_past slot past ((given w).2 (.inl known)) ((mem_removed_iff few removed).2 past)
    · have absent : ∀ w, (h, w) ∉ before := fun w known => past (first.1 ⟨w, known⟩)
      have status := status_of_slot slot
      by_cases own : generationAfter n = h.generation
      · rw [if_pos own] at status
        have current : h = handleAt h.index n := by
          rw [handleAt, own]
        refine .of_live status (fun w => ?_) (mt (mem_removed_iff few removed).1 past)
        rw [given]
        simp [absent, ← current]
      · rw [if_neg own, if_neg past] at status
        refine .of_unknown status fun w known => ?_
        rcases (given w).1 known with old | ⟨current, -⟩
        · exact absent w old
        · exact own (congrArg Handle.generation current).symm

/-- Only handles that have been issued are removed, in the same order. -/
theorem Slotted.removed_prefix (slotted : s.Slotted i) :
    s.removedAt i <+: (s.issuedAt i).map Prod.fst := by
  cases slotted with
  | unused _ issued removed =>
    rw [removed]
    exact List.nil_prefix
  | empty n _ issued removed => exact ⟨[], (List.append_nil _).trans (removed.trans issued.symm)⟩
  | occupied n v before _ issued earlier removed =>
    rw [issued, removed, List.map_append, earlier]
    exact List.prefix_append _ _

theorem status_ne_retired {t : HandleTable α} (last : ∀ g, ¬h.generation < g) :
    t.status h ≠ .retired := by
  simp only [status, last, if_false]
  split
  · nofun
  · split_ifs
    · nofun
    · split <;> nofun
    · nofun

/-- When a slot has been freed as often as there are generations, nothing tells its last handle from
one that was never issued. -/
theorem Slotted.not_tells (slotted : s.Slotted i) (many : generations ≤ s.frees i) :
    ¬s.Tells (handleAt i (generations - 1)) := by
  intro told
  have gone : handleAt i (generations - 1) ∈ s.removedAt i := by
    have early : ∀ n, generations ≤ n → generations - 1 < n := by
      intro n many
      simp only [generations, UInt32.size] at many ⊢
      omega
    cases slotted with
    | unused _ _ removed =>
      rw [frees, removed] at many
      cases early _ many
    | empty n _ _ removed | occupied n _ _ _ _ _ removed =>
      rw [frees, removed, List.length_map, List.length_range] at many
      rw [removed]
      exact List.mem_map_of_mem (List.mem_range.2 (early n many))
  have last : ∀ g, ¬(handleAt i (generations - 1)).generation < g := by
    intro g less
    have value := toNat_generationAfter (generations - 1)
    have small := g.toNat_lt
    rw [handleAt, UInt32.lt_iff_toNat_lt, value] at less
    simp only [generations, UInt32.size] at less
    omega
  obtain ⟨⟨h, v⟩, known, same⟩ := List.mem_map.1 (slotted.removed_prefix.subset gone)
  obtain rfl : h = handleAt i (generations - 1) := same
  apply status_ne_retired last
  exact told.retired.2 ⟨⟨v, mem_issuedAt_iff.1 known⟩, mem_removedAt_iff.1 gone⟩

theorem nodup_handles {m : Nat} (few : m ≤ generations) :
    ((List.range m).map (handleAt i)).Nodup := by
  apply List.Nodup.map_on _ List.nodup_range
  intro k below k' below' same
  exact generationAfter_injOn (Nat.lt_of_lt_of_le (List.mem_range.1 below) few)
    (Nat.lt_of_lt_of_le (List.mem_range.1 below') few) (congrArg Handle.generation same)

theorem Slotted.nodup (slotted : s.Slotted i) (few : s.frees i < generations) :
    ((s.issuedAt i).map Prod.fst).Nodup := by
  cases slotted with
  | unused _ issued _ => simp [issued]
  | empty n _ issued removed =>
    rw [frees, removed, List.length_map, List.length_range] at few
    rw [issued]
    exact nodup_handles (Nat.le_of_lt few)
  | occupied n v before _ issued earlier removed =>
    rw [frees, removed, List.length_map, List.length_range] at few
    have all : (s.issuedAt i).map Prod.fst = (List.range (n + 1)).map (handleAt i) := by
      rw [issued, List.map_append, earlier, List.range_succ, List.map_append]
      rfl
    rw [all]
    exact nodup_handles few

/-- For each slot by itself: the status of its handles tells what has become of them until the slot
has been freed as often as there are generations, and never after. -/
theorem tells_iff (calls : List (Call α)) (room : (of calls).table.slots.size ≤ UInt32.size)
    (i : UInt32) :
    (∀ h, h.index = i → (of calls).Tells h) ↔ (of calls).frees i < generations := by
  have slotted := (slotted_of calls room).2
  constructor
  · intro tells
    by_contra many
    exact (slotted i).not_tells (Nat.le_of_not_lt many) (tells _ rfl)
  · rintro few h rfl
    exact (slotted h.index).tells few

theorem numbered_of (calls : List (Call α)) : (of calls).table.Numbered := by
  induction calls using List.reverseRecOn with
  | nil => exact numbered_empty
  | append_singleton calls c ih =>
    rw [of_append, List.foldl_cons, List.foldl_nil]
    cases c with
    | insert build => exact ih.insertWith build
    | remove h => exact ih.remove h

theorem exists_issued_of_removed (calls : List (Call α))
    (room : (of calls).table.slots.size ≤ UInt32.size) (gone : h ∈ (of calls).removed) :
    ∃ v, (h, v) ∈ (of calls).issued := by
  have slotted := (slotted_of calls room).2 h.index
  obtain ⟨⟨h', v⟩, known, same⟩ :=
    List.mem_map.1 (slotted.removed_prefix.subset (mem_removedAt_iff.2 gone))
  obtain rfl : h' = h := same
  exact ⟨v, mem_issuedAt_iff.1 known⟩

/-- As long as its slot has not been freed that often, a handle that was removed does not resolve
later on, and is not issued once more. -/
theorem stale_after (calls later : List (Call α))
    (room : (of (calls ++ later)).table.slots.size ≤ UInt32.size)
    (few : (of (calls ++ later)).frees h.index < generations) (gone : h ∈ (of calls).removed) :
    (of (calls ++ later)).table.get? h = none ∧
      h ∉ ((of (calls ++ later)).issued.drop (of calls).issued.length).map Prod.fst := by
  have slotted := (slotted_of (calls ++ later) room).2 h.index
  have numbered := numbered_of (calls ++ later)
  rw [of_append] at room few slotted numbered ⊢
  obtain ⟨v, given⟩ :=
    exists_issued_of_removed calls ((size_le_foldl (of calls) later).trans room) gone
  have stays := (removed_prefix_foldl (of calls) later).subset gone
  obtain ⟨new, issued⟩ := issued_prefix_foldl (of calls) later
  constructor
  · apply Option.eq_none_iff_forall_ne_some.2
    intro w found
    exact (((slotted.tells few).live w).1 (numbered.status_eq_live.2 found)).2 stays
  · rw [← issued, List.drop_left]
    intro again
    obtain ⟨⟨h', w⟩, anew, same⟩ := List.mem_map.1 again
    obtain rfl : h' = h := same
    have once := slotted.nodup few
    rw [issuedAt, ← issued, List.filter_append, List.map_append, List.nodup_append] at once
    refine once.2.2 h' ?_ h' ?_ rfl
    · exact List.mem_map.2 ⟨(h', v), List.mem_filter.2 ⟨given, by simp⟩, rfl⟩
    · exact List.mem_map.2 ⟨(h', w), List.mem_filter.2 ⟨anew, by simp⟩, rfl⟩

end History

end HandleTable

end LockManager
