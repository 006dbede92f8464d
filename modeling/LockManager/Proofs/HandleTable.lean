import LockManager.HandleTable
import Mathlib.Data.List.Basic
import Mathlib.Data.List.Nodup

set_option autoImplicit false

/-!
A handle resolves from the insertion that issued it until it is removed. That needs slot numbers to
fit a handle, so it is stated for tables of at most `UInt32.size` slots; what is in a table was put
there in any case.
-/

namespace LockManager
namespace HandleTable

variable {α : Type} {t : HandleTable α}

theorem get?_eq_some {h : Handle} {v : α} :
    t.get? h = some v ↔ t.slots[h.index.toNat]? = some ⟨h.generation, some v⟩ := by
  unfold get?
  cases t.slots[h.index.toNat]? with
  | none => simp
  | some slot =>
    obtain ⟨generation, entry⟩ := slot
    by_cases same : generation = h.generation
    · simp [same]
    · simp [same]

theorem exists_slot_of_mem_entries {v : α} (inside : v ∈ t.entries) :
    ∃ (i : Nat) (g : UInt32), t.slots[i]? = some (⟨g, some v⟩ : Slot α) := by
  unfold entries at inside
  obtain ⟨⟨g, entry⟩, there, rfl⟩ := List.mem_filterMap.mp inside
  obtain ⟨i, found⟩ := List.mem_iff_getElem?.mp there
  exact ⟨i, g, Array.getElem?_toList.symm.trans found⟩

theorem mem_entries_of_slot {i : Nat} {g : UInt32} {v : α}
    (found : t.slots[i]? = some (⟨g, some v⟩ : Slot α)) : v ∈ t.entries := by
  unfold entries
  exact List.mem_filterMap.mpr
    ⟨_, List.mem_iff_getElem?.mpr ⟨i, Array.getElem?_toList.trans found⟩, rfl⟩

theorem mem_entries_of_get? {h : Handle} {v : α} (found : t.get? h = some v) : v ∈ t.entries := by
  rw [get?_eq_some] at found
  exact mem_entries_of_slot found

/-! ### What is in a table was put there -/

theorem mem_entries_insertWith {build : Handle → α} {v : α}
    (inside : v ∈ (t.insertWith build).entries) :
    v = build t.upcoming ∨ v ∈ t.entries := by
  obtain ⟨i, g, found⟩ := exists_slot_of_mem_entries inside
  unfold insertWith at found
  cases free : t.free with
  | nil =>
    simp only [free, Array.getElem?_push] at found
    split at found
    · exact .inl (Option.some.inj (congrArg Slot.entry (Option.some.inj found))).symm
    · exact .inr (mem_entries_of_slot found)
  | cons index rest =>
    simp only [free, Array.getElem?_modify] at found
    split at found
    · obtain ⟨slot, -, same⟩ := Option.map_eq_some_iff.mp found
      exact .inl (by simpa using (congrArg Slot.entry same).symm)
    · exact .inr (mem_entries_of_slot found)

theorem mem_entries_remove {h : Handle} {v : α} (inside : v ∈ (t.remove h).entries) :
    v ∈ t.entries := by
  obtain ⟨i, g, found⟩ := exists_slot_of_mem_entries inside
  unfold remove at found
  cases live : t.get? h with
  | none =>
    simp only [live] at found
    exact mem_entries_of_slot found
  | some old =>
    simp only [live, Array.getElem?_modify] at found
    split at found
    · obtain ⟨slot, -, same⟩ := Option.map_eq_some_iff.mp found
      simp at same
    · exact mem_entries_of_slot found

/-! ### Size -/

theorem size_le_insertWith (build : Handle → α) :
    t.slots.size ≤ (t.insertWith build).slots.size := by
  unfold insertWith
  cases t.free <;> simp

theorem size_insertWith_le {build : Handle → α} (room : t.slots.size ≤ UInt32.size)
    (fits : t.free = [] → t.slots.size < UInt32.size) :
    (t.insertWith build).slots.size ≤ UInt32.size := by
  unfold insertWith
  cases free : t.free with
  | nil =>
    rw [Array.size_push]
    exact fits free
  | cons _ _ =>
    rw [Array.size_modify]
    exact room

theorem size_remove (h : Handle) : (t.remove h).slots.size = t.slots.size := by
  unfold remove
  cases t.get? h <;> simp

/-- A handle that resolves did so before, or has been issued for what it resolves to now. -/
theorem get?_of_insertWith {build : Handle → α} {h : Handle} {v : α}
    (found : (t.insertWith build).get? h = some v) :
    t.get? h = some v ∨ h = t.upcoming ∧ v = build t.upcoming := by
  rw [get?_eq_some] at found ⊢
  unfold insertWith at found
  cases free : t.free with
  | nil =>
    simp only [free, Array.getElem?_push] at found
    split at found
    · next last =>
      simp only [Option.some.injEq, Slot.mk.injEq] at found
      refine .inr ⟨?_, found.2.symm⟩
      obtain ⟨index, generation⟩ := h
      have same : UInt32.ofNat t.slots.size = index := by rw [← last, UInt32.ofNat_toNat]
      simp only [upcoming, free, same]
      exact congrArg (Handle.mk index) found.1.symm
    · exact .inl found
  | cons index rest =>
    simp only [free, Array.getElem?_modify] at found
    split at found
    · next here =>
      obtain ⟨slot, there, same⟩ := Option.map_eq_some_iff.mp found
      simp only [Slot.mk.injEq, Option.some.injEq] at same
      refine .inr ⟨?_, same.2.symm⟩
      obtain ⟨index', generation⟩ := h
      obtain rfl : index = index' := UInt32.toNat_inj.mp here
      dsimp only at there same
      simp only [upcoming, free, Array.getD_eq_getD_getElem?, there, Option.getD_some, same.1]
    · exact .inl found

/-! ### Free slots -/

/-- The free list names empty slots, each once. -/
structure Proper (t : HandleTable α) : Prop where
  distinct : t.free.Nodup
  empty : ∀ i ∈ t.free, ∃ g, t.slots[i.toNat]? = some ⟨g, none⟩

theorem proper_empty : ({} : HandleTable α).Proper := ⟨.nil, nofun⟩

variable {build : Handle → α}

theorem getElem?_insertWith (proper : t.Proper)
    (room : (t.insertWith build).slots.size ≤ UInt32.size) (i : Nat) :
    (t.insertWith build).slots[i]? =
      if i = t.upcoming.index.toNat then some ⟨t.upcoming.generation, some (build t.upcoming)⟩
      else t.slots[i]? := by
  unfold insertWith at room ⊢
  cases free : t.free with
  | nil =>
    simp only [free, Array.size_push] at room ⊢
    have number : t.upcoming = ⟨UInt32.ofNat t.slots.size, 1⟩ := by
      unfold upcoming
      rw [free]
    have small : (UInt32.ofNat t.slots.size).toNat = t.slots.size :=
      UInt32.toNat_ofNat_of_lt' room
    simp only [number, small, Array.getElem?_push]
  | cons index rest =>
    obtain ⟨g, empty⟩ := proper.empty index (free ▸ List.mem_cons_self)
    have number : t.upcoming = ⟨index, g⟩ := by
      unfold upcoming
      simp only [free, Array.getD_eq_getD_getElem?, empty, Option.getD_some]
    simp only [number, Array.getElem?_modify]
    by_cases same : i = index.toNat
    · simp only [same, if_true, empty, Option.map_some]
    · simp only [same, if_false, if_neg (Ne.symm same)]

theorem getElem?_remove (h : Handle) (i : Nat) :
    (t.remove h).slots[i]? =
      if (t.get? h).isSome ∧ i = h.index.toNat then some ⟨nextGeneration h.generation, none⟩
      else t.slots[i]? := by
  unfold remove
  cases live : t.get? h with
  | none => simp
  | some old =>
    simp only [Option.isSome_some, true_and, Array.getElem?_modify]
    by_cases same : i = h.index.toNat
    · simp only [same, if_true, get?_eq_some.mp live, Option.map_some]
    · simp only [same, if_false, if_neg (Ne.symm same)]

theorem getElem?_upcoming (proper : t.Proper) {g : UInt32} {v : α}
    (room : t.free = [] → t.slots.size < UInt32.size) :
    t.slots[t.upcoming.index.toNat]? ≠ some ⟨g, some v⟩ := by
  unfold upcoming
  cases free : t.free with
  | nil =>
    rw [show (UInt32.ofNat t.slots.size).toNat = t.slots.size from
      UInt32.toNat_ofNat_of_lt' (room free)]
    simp
  | cons index rest =>
    obtain ⟨g', empty⟩ := proper.empty index (free ▸ List.mem_cons_self)
    simp [empty]

theorem room_of_insertWith (room : (t.insertWith build).slots.size ≤ UInt32.size)
    (full : t.free = []) : t.slots.size < UInt32.size := by
  unfold insertWith at room
  simp only [full, Array.size_push] at room
  exact room

/-- The handle issued resolves to what has been built for it, every other one as before. -/
theorem get?_insertWith (proper : t.Proper)
    (room : (t.insertWith build).slots.size ≤ UInt32.size) (h : Handle) :
    (t.insertWith build).get? h = if h = t.upcoming then some (build t.upcoming) else t.get? h := by
  have vacant : ∀ g v, t.slots[t.upcoming.index.toNat]? ≠ some ⟨g, some v⟩ := fun g v =>
    getElem?_upcoming proper (room_of_insertWith room)
  apply Option.ext
  intro v
  rw [get?_eq_some, getElem?_insertWith proper room]
  by_cases same : h = t.upcoming
  · simp [same]
  · rw [if_neg same, get?_eq_some]
    by_cases slot : h.index.toNat = t.upcoming.index.toNat
    · have apart : t.upcoming.generation ≠ h.generation := by
        intro equal
        apply same
        rw [← Handle.ofCookie_cookie h, ← Handle.ofCookie_cookie t.upcoming, Handle.cookie,
          Handle.cookie, slot, equal]
      simp only [slot, if_true, vacant, iff_false]
      simp [apart]
    · rw [if_neg slot]

theorem get?_upcoming (proper : t.Proper)
    (room : (t.insertWith build).slots.size ≤ UInt32.size) : t.get? t.upcoming = none := by
  apply Option.eq_none_iff_forall_ne_some.mpr
  intro v found
  exact getElem?_upcoming proper (room_of_insertWith room) (get?_eq_some.mp found)

theorem get?_remove (h h' : Handle) :
    (t.remove h).get? h' = if h' = h then none else t.get? h' := by
  apply Option.ext
  intro v
  rw [get?_eq_some, getElem?_remove]
  cases live : t.get? h with
  | none =>
    simp only [Option.isSome_none, Bool.false_eq_true, false_and, if_false, ← get?_eq_some]
    by_cases same : h' = h
    · simp [same, live]
    · rw [if_neg same]
  | some old =>
    have found := get?_eq_some.mp live
    by_cases same : h' = h
    · simp [same]
    · rw [if_neg same, get?_eq_some]
      by_cases slot : h'.index.toNat = h.index.toNat
      · have apart : h.generation ≠ h'.generation := by
          intro equal
          apply same
          rw [← Handle.ofCookie_cookie h', ← Handle.ofCookie_cookie h, Handle.cookie,
            Handle.cookie, slot, equal]
        simp [slot, found, apart]
      · simp [slot]

theorem Proper.insertWith (proper : t.Proper)
    (room : (t.insertWith build).slots.size ≤ UInt32.size) : (t.insertWith build).Proper := by
  have slots := getElem?_insertWith proper room
  cases free : t.free with
  | nil =>
    have rest : (t.insertWith build).free = [] := by
      unfold HandleTable.insertWith
      simp [free]
    constructor
    · rw [rest]
      exact .nil
    · rw [rest]
      exact nofun
  | cons index others =>
    have rest : (t.insertWith build).free = others := by
      unfold HandleTable.insertWith
      simp [free]
    have number : t.upcoming.index = index := by
      unfold upcoming
      rw [free]
    have distinct := proper.distinct
    rw [free, List.nodup_cons] at distinct
    constructor
    · rw [rest]
      exact distinct.2
    · rw [rest]
      intro i inside
      have apart : i.toNat ≠ t.upcoming.index.toNat := by
        rw [number]
        intro same
        exact distinct.1 (UInt32.toNat_inj.mp same ▸ inside)
      rw [slots, if_neg apart]
      exact proper.empty i (free ▸ List.mem_cons_of_mem index inside)

theorem Proper.remove (proper : t.Proper) (h : Handle) : (t.remove h).Proper := by
  cases live : t.get? h with
  | none =>
    have same : t.remove h = t := by
      unfold HandleTable.remove
      rw [live]
    rw [same]
    exact proper
  | some old =>
    have rest : (t.remove h).free = h.index :: t.free := by
      unfold HandleTable.remove
      rw [live]
    have taken : h.index ∉ t.free := by
      intro inside
      obtain ⟨g, empty⟩ := proper.empty _ inside
      rw [get?_eq_some.mp live] at empty
      simp at empty
    constructor
    · rw [rest]
      exact List.nodup_cons.mpr ⟨taken, proper.distinct⟩
    · rw [rest]
      intro i inside
      rw [getElem?_remove, live]
      by_cases same : i.toNat = h.index.toNat
      · exact ⟨nextGeneration h.generation, by simp [same]⟩
      · rcases List.mem_cons.mp inside with rfl | old
        · exact absurd rfl same
        · obtain ⟨g, empty⟩ := proper.empty i old
          exact ⟨g, by simp [same, empty]⟩

/-- Below the limit on slots what is in a table is what handles resolve to. -/
theorem exists_get?_of_mem (room : t.slots.size ≤ UInt32.size) {v : α} (inside : v ∈ t.entries) :
    ∃ h, t.get? h = some v := by
  obtain ⟨i, g, found⟩ := exists_slot_of_mem_entries inside
  have below : i < UInt32.size := by
    obtain ⟨bound, -⟩ := Array.getElem?_eq_some_iff.mp found
    exact Nat.lt_of_lt_of_le bound room
  refine ⟨⟨UInt32.ofNat i, g⟩, get?_eq_some.mpr ?_⟩
  rw [show (UInt32.ofNat i).toNat = i from UInt32.toNat_ofNat_of_lt' below]
  exact found

/-! ### Generations -/

/-- No slot has the generation that is never issued. -/
def Numbered (t : HandleTable α) : Prop :=
  ∀ (i : Nat) (slot : Slot α), t.slots[i]? = some slot → slot.generation ≠ 0

theorem numbered_empty : ({} : HandleTable α).Numbered := nofun

theorem nextGeneration_ne_zero (g : UInt32) : nextGeneration g ≠ 0 := by
  unfold nextGeneration
  split
  · decide
  · assumption

theorem Numbered.insertWith (numbered : t.Numbered) (build : Handle → α) :
    (t.insertWith build).Numbered := by
  intro i slot found
  unfold HandleTable.insertWith at found
  cases free : t.free with
  | nil =>
    simp only [free, Array.getElem?_push] at found
    split at found
    · cases found
      exact (by decide : (1 : UInt32) ≠ 0)
    · exact numbered i slot found
  | cons index rest =>
    simp only [free, Array.getElem?_modify] at found
    split at found
    · obtain ⟨old, there, rfl⟩ := Option.map_eq_some_iff.mp found
      exact numbered i old there
    · exact numbered i slot found

theorem Numbered.remove (numbered : t.Numbered) (h : Handle) : (t.remove h).Numbered := by
  intro i slot found
  rw [getElem?_remove] at found
  split at found
  · cases found
    exact nextGeneration_ne_zero _
  · exact numbered i slot found

/-- A handle that resolves is live, and no other is. -/
theorem Numbered.status_eq_live (numbered : t.Numbered) {h : Handle} {v : α} :
    t.status h = .live v ↔ t.get? h = some v := by
  unfold status get?
  cases there : t.slots[h.index.toNat]? with
  | none => simp
  | some slot =>
    have issued := numbered _ slot there
    by_cases same : slot.generation = h.generation
    · rw [same] at issued
      simp only [issued, same, if_false, if_true]
      cases slot.entry <;> simp
    · simp only [same, if_false]
      split
      · simp
      · split <;> simp

/-! ### Who bears which handle -/

/-- A handle resolves to the one below `n` who bears it and has not gone. -/
def Resolves (t : HandleTable Nat) (n : Nat) (handle : Nat → Handle) (gone : Nat → Bool) : Prop :=
  ∀ h k, t.get? h = some k ↔ k < n ∧ handle k = h ∧ gone k = false

namespace Resolves

variable {t : HandleTable Nat} {n : Nat} {handle handle' : Nat → Handle} {gone gone' : Nat → Bool}

theorem insertWith (resolves : t.Resolves n handle gone) (proper : t.Proper)
    (room : (t.insertWith fun _ => n).slots.size ≤ UInt32.size) (first : handle' n = t.upcoming)
    (stays : gone' n = false) (old : ∀ k, k ≠ n → handle' k = handle k ∧ gone' k = gone k) :
    (t.insertWith fun _ => n).Resolves (n + 1) handle' gone' := by
  intro h k
  rw [get?_insertWith proper room]
  by_cases last : k = n
  · rw [last, first]
    split
    · next same => simp [same, stays]
    · next other =>
      rw [resolves]
      exact iff_of_false (fun found => Nat.lt_irrefl n found.1) fun found => other found.2.1.symm
  · have below : k < n + 1 ↔ k < n :=
      ⟨fun le => Nat.lt_of_le_of_ne (Nat.le_of_lt_succ le) last, Nat.lt_succ_of_lt⟩
    rw [(old k last).1, (old k last).2, below, ← resolves]
    split
    · next same =>
      -- nobody bore the handle that is issued
      rw [same, get?_upcoming proper room, Option.some.injEq]
      exact iff_of_false (Ne.symm last) (by simp)
    · exact Iff.rfl

theorem remove (resolves : t.Resolves n handle gone) {l : Nat} (known : l < n)
    (stays : gone l = false) (left : gone' l = true) (still : ∀ k, handle' k = handle k)
    (others : ∀ k, k ≠ l → gone' k = gone k) :
    (t.remove (handle l)).Resolves n handle' gone' := by
  intro h k
  rw [get?_remove, still]
  by_cases same : k = l
  · rw [same, left]
    split
    · simp
    · next other =>
      exact iff_of_false (fun found => other ((resolves h l).mp found).2.1.symm) (by simp)
  · rw [others k same, ← resolves]
    split
    · next here =>
      -- only `l` bore the handle that goes
      rw [here, (resolves _ l).mpr ⟨known, rfl, stays⟩, Option.some.injEq]
      exact iff_of_false (by simp) (Ne.symm same)
    · exact Iff.rfl

end Resolves

end HandleTable
end LockManager
