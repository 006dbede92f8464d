import LockManager.Proofs.HandleTable.History

set_option autoImplicit false

/-!
What a table stands for: entries under handles. Its slots, its free list and its count of live entries
are three accounts of the same entries, and no sequence of calls gets them apart.
-/

namespace LockManager
namespace HandleTable

variable {α : Type} {t : HandleTable α} {held : List (Handle × α)} {build : Handle → α}
  {h : Handle} {v : α}

/-- All parts of the table are about the entries in `held`, and no others. -/
structure Represents (t : HandleTable α) (held : List (Handle × α)) : Prop where
  distinct : (held.map Prod.fst).Nodup
  resolves : ∀ h v, t.get? h = some v ↔ (h, v) ∈ held
  free : t.free.Nodup
  vacant : ∀ i : Nat, i ∈ t.free.map UInt32.toNat ↔ ∃ g, t.slots[i]? = some ⟨g, none⟩
  live : t.live = t.slots.toList.countP (·.entry.isSome)
  snapshot : ∃ ordered : List (Handle × α), ordered.Perm held ∧
    ordered.Pairwise (·.1.index < ·.1.index) ∧ t.entries = ordered.map Prod.snd

/-- Between the two tables, `v` has been stored under `h`, which did not resolve before. -/
structure Stored (t t' : HandleTable α) (h : Handle) (v : α) : Prop where
  new : t.get? h = none
  resolves : t'.get? h = some v
  others : ∀ h', h' ≠ h → t'.get? h' = t.get? h'
  live : t'.live = t.live + 1

/-- Between the two tables, the entry under `h` has gone. -/
structure TakenOut (t t' : HandleTable α) (h : Handle) : Prop where
  gone : t'.get? h = none
  others : ∀ h', h' ≠ h → t'.get? h' = t.get? h'
  live : t'.live + 1 = t.live

/-! ### The entries in slot order -/

/-- The entry of the slot with the handle that resolves to it. -/
def Slot.named (slot : Slot α) (i : Nat) : Option (Handle × α) :=
  slot.entry.map fun v => (⟨UInt32.ofNat i, slot.generation⟩, v)

/-- The live entries with their handles, in slot order. -/
def listed (t : HandleTable α) : List (Handle × α) :=
  t.slots.toList.zipIdx.filterMap fun place => Slot.named place.1 place.2

theorem map_listed : t.listed.map Prod.snd = t.entries := by
  have forget : ∀ place : Slot α × Nat, (Slot.named place.1 place.2).map Prod.snd = place.1.entry := by
    rintro ⟨⟨g, entry⟩, i⟩
    cases entry <;> rfl
  rw [listed, entries, List.map_filterMap]
  simp only [forget]
  rw [← Function.comp_def (Slot.entry) Prod.fst, ← List.filterMap_map, List.zipIdx_map_fst]

theorem mem_zipIdx_slots {slot : Slot α} {i : Nat} :
    (slot, i) ∈ t.slots.toList.zipIdx ↔ t.slots[i]? = some slot := by
  rw [List.mem_zipIdx_iff_getElem?, Array.getElem?_toList]

theorem lt_of_mem_zipIdx_slots {place : Slot α × Nat} (inside : place ∈ t.slots.toList.zipIdx) :
    place.2 < t.slots.size := by
  obtain ⟨below, -⟩ := Array.getElem?_eq_some_iff.1 (mem_zipIdx_slots.1 inside)
  exact below

theorem mem_listed_iff (room : t.slots.size ≤ UInt32.size) :
    (h, v) ∈ t.listed ↔ t.get? h = some v := by
  rw [get?_eq_some, listed, List.mem_filterMap]
  constructor
  · rintro ⟨⟨⟨g, entry⟩, i⟩, inside, same⟩
    obtain ⟨w, rfl, same⟩ := Option.map_eq_some_iff.1 same
    obtain ⟨rfl, rfl⟩ := Prod.mk.inj same
    have small : (UInt32.ofNat i).toNat = i :=
      UInt32.toNat_ofNat_of_lt' (Nat.lt_of_lt_of_le (lt_of_mem_zipIdx_slots inside) room)
    simpa only [small] using mem_zipIdx_slots.1 inside
  · intro found
    refine ⟨(⟨h.generation, some v⟩, h.index.toNat), mem_zipIdx_slots.2 found, ?_⟩
    simp [Slot.named]

theorem pairwise_listed (room : t.slots.size ≤ UInt32.size) :
    t.listed.Pairwise (·.1.index < ·.1.index) := by
  have rising : t.slots.toList.zipIdx.Pairwise (·.2 < ·.2) := by
    rw [← List.pairwise_map, List.zipIdx_map_snd]
    exact List.pairwise_lt_range' 1
  apply List.Pairwise.filterMap _ _ (List.Pairwise.and_mem.1 rising)
  rintro ⟨slot, i⟩ ⟨slot', j⟩ ⟨inside, inside', before⟩ x named y named'
  obtain ⟨v, -, rfl⟩ := Option.map_eq_some_iff.1 named
  obtain ⟨w, -, rfl⟩ := Option.map_eq_some_iff.1 named'
  have := Nat.lt_of_lt_of_le (lt_of_mem_zipIdx_slots inside) room
  have := Nat.lt_of_lt_of_le (lt_of_mem_zipIdx_slots inside') room
  rw [UInt32.lt_iff_toNat_lt, UInt32.toNat_ofNat_of_lt' ‹_›, UInt32.toNat_ofNat_of_lt' ‹_›]
  exact before

theorem nodup_listed (room : t.slots.size ≤ UInt32.size) : t.listed.Nodup := by
  apply (pairwise_listed room).imp
  rintro x y before rfl
  exact UInt32.lt_irrefl _ before

/-! ### One call -/

/-- What has to be known of a table and its entries for the next call to keep them together. -/
structure Keeps (t : HandleTable α) (held : List (Handle × α)) : Prop where
  proper : t.Proper
  vacant : ∀ (i : Nat) (g : UInt32), t.slots[i]? = some ⟨g, none⟩ → i ∈ t.free.map UInt32.toNat
  distinct : (held.map Prod.fst).Nodup
  resolves : ∀ h v, t.get? h = some v ↔ (h, v) ∈ held
  live : t.live = held.length

theorem keeps_empty : ({} : HandleTable α).Keeps [] := by
  refine ⟨proper_empty, nofun, .nil, ?_, rfl⟩
  simp [get?]

theorem Keeps.represents (keeps : t.Keeps held) (room : t.slots.size ≤ UInt32.size) :
    t.Represents held := by
  have same : t.listed.Perm held := by
    apply (List.perm_ext_iff_of_nodup (nodup_listed room) (.of_map _ keeps.distinct)).2
    rintro ⟨h, v⟩
    rw [mem_listed_iff room, keeps.resolves]
  refine ⟨keeps.distinct, keeps.resolves, keeps.proper.distinct, fun i => ⟨?_, ?_⟩, ?_,
    t.listed, same, pairwise_listed room, map_listed.symm⟩
  · intro inside
    obtain ⟨index, free, rfl⟩ := List.mem_map.1 inside
    exact keeps.proper.empty index free
  · rintro ⟨g, empty⟩
    exact keeps.vacant i g empty
  · rw [keeps.live, ← same.length_eq, ← List.length_map Prod.snd, map_listed, entries,
      List.length_filterMap_eq_countP]

theorem live_insertWith : (t.insertWith build).live = t.live + 1 := by
  unfold insertWith
  cases t.free <;> rfl

theorem stored_insertWith (proper : t.Proper)
    (room : (t.insertWith build).slots.size ≤ UInt32.size) :
    t.Stored (t.insertWith build) t.upcoming (build t.upcoming) := by
  have resolves := get?_insertWith proper room
  refine ⟨get?_upcoming proper room, ?_, fun h' other => ?_, live_insertWith⟩
  · rw [resolves, if_pos rfl]
  · rw [resolves, if_neg other]

theorem Keeps.insertWith (keeps : t.Keeps held)
    (room : (t.insertWith build).slots.size ≤ UInt32.size) :
    (t.insertWith build).Keeps (held ++ [(t.upcoming, build t.upcoming)]) := by
  have stored := stored_insertWith keeps.proper room
  have absent : ∀ v, (t.upcoming, v) ∉ held := by
    intro v inside
    rw [← keeps.resolves, stored.new] at inside
    cases inside
  refine ⟨keeps.proper.insertWith room, fun i g empty => ?_, ?_, fun h v => ?_, ?_⟩
  · rw [getElem?_insertWith keeps.proper room] at empty
    split at empty
    · simp at empty
    · next other =>
      have inside := keeps.vacant i g empty
      -- the slot that was free before and still is stands behind the one that was taken
      cases free : t.free with
      | nil => simp [free] at inside
      | cons index rest =>
        have number : t.upcoming.index = index := by simp only [upcoming, free]
        simp only [HandleTable.insertWith, free]
        rw [free, List.map_cons, List.mem_cons, ← number] at inside
        exact inside.resolve_left other
  · rw [List.map_append, List.nodup_append]
    refine ⟨keeps.distinct, List.nodup_singleton _, ?_⟩
    intro h inside h' last same
    obtain rfl : h' = t.upcoming := List.mem_singleton.1 last
    obtain ⟨⟨h, v⟩, old, rfl⟩ := List.mem_map.1 inside
    exact absent v (same ▸ old)
  · rw [get?_insertWith keeps.proper room, List.mem_append, List.mem_singleton, Prod.mk.injEq]
    split
    · next same =>
      rw [same]
      simp [absent, eq_comm]
    · next other => simp [keeps.resolves, other]
  · rw [live_insertWith, keeps.live, List.length_append, List.length_singleton]

theorem remove_of_get?_eq_none (none : t.get? h = none) : t.remove h = t := by
  simp only [remove, none]

theorem Keeps.length_filter (keeps : t.Keeps held) (found : t.get? h = some v) :
    (held.filter (·.1 ≠ h)).length + 1 = held.length := by
  have inside : h ∈ held.map Prod.fst := List.mem_map.2 ⟨_, (keeps.resolves h v).1 found, rfl⟩
  have once : held.countP (·.1 = h) = 1 := by
    have := List.count_eq_one_of_mem keeps.distinct inside
    rwa [List.count, List.countP_map] at this
  have split := List.length_eq_countP_add_countP (·.1 = h) (l := held)
  simp only [decide_eq_true_eq] at split
  rw [split, once, ← List.countP_eq_length_filter, Nat.add_comm]

theorem Keeps.takenOut (keeps : t.Keeps held) (found : t.get? h = some v) :
    t.TakenOut (t.remove h) h := by
  have count := keeps.length_filter found
  refine ⟨?_, fun h' other => ?_, ?_⟩
  · rw [get?_remove, if_pos rfl]
  · rw [get?_remove, if_neg other]
  · have one_less : (t.remove h).live = t.live - 1 := by simp only [remove, found]
    rw [one_less, keeps.live]
    omega

theorem Keeps.remove (keeps : t.Keeps held) (h : Handle) :
    (t.remove h).Keeps (held.filter (·.1 ≠ h)) := by
  have resolves : ∀ h' v, (t.remove h).get? h' = some v ↔ (h', v) ∈ held.filter (·.1 ≠ h) := by
    intro h' v
    rw [get?_remove, List.mem_filter]
    split
    · next same => simp [same]
    · next other => simp [keeps.resolves, other]
  have distinct : ((held.filter (·.1 ≠ h)).map Prod.fst).Nodup :=
    keeps.distinct.sublist (List.filter_sublist.map Prod.fst)
  refine ⟨keeps.proper.remove h, fun i g empty => ?_, distinct, resolves, ?_⟩
  · cases found : t.get? h with
    | none =>
      rw [remove_of_get?_eq_none found] at empty ⊢
      exact keeps.vacant i g empty
    | some v =>
      have free : (t.remove h).free = h.index :: t.free := by simp only [HandleTable.remove, found]
      rw [free, List.map_cons, List.mem_cons]
      rw [getElem?_remove, found] at empty
      split at empty
      · next here => exact .inl here.2
      · exact .inr (keeps.vacant i g empty)
  · cases found : t.get? h with
    | none =>
      have all : held.filter (·.1 ≠ h) = held := by
        apply List.filter_eq_self.2
        rintro ⟨h', v⟩ inside
        rw [← keeps.resolves] at inside
        have other : h' ≠ h := by
          rintro rfl
          rw [found] at inside
          cases inside
        simpa using other
      rw [all, remove_of_get?_eq_none found, keeps.live]
    | some v =>
      have less := (keeps.takenOut found).live
      have count := keeps.length_filter found
      rw [keeps.live] at less
      omega

namespace History

/-- The entries that are held after the call, with the handles they were built for. -/
def hold (t : HandleTable α) (held : List (Handle × α)) : Call α → List (Handle × α)
  | .insert build => held ++ [(t.upcoming, build t.upcoming)]
  | .remove h => held.filter (·.1 ≠ h)

def holdAll (s : History α) (held : List (Handle × α)) : List (Call α) → List (Handle × α)
  | [] => held
  | c :: calls => (s.call c).holdAll (hold s.table held c) calls

/-- What the calls have stored in an empty table and have not removed, with the handles issued. -/
def stored (calls : List (Call α)) : List (Handle × α) := holdAll {} [] calls

theorem keeps_foldl (calls : List (Call α)) {s : History α} (keeps : s.table.Keeps held)
    (room : (calls.foldl call s).table.slots.size ≤ UInt32.size) :
    (calls.foldl call s).table.Keeps (s.holdAll held calls) := by
  induction calls generalizing s held with
  | nil => exact keeps
  | cons c calls ih =>
    refine ih ?_ room
    cases c with
    | insert build => exact keeps.insertWith ((size_le_foldl _ calls).trans room)
    | remove h => exact keeps.remove h

/-- After any calls, the table represents what they have stored and not removed. A further insertion
stores one entry and a removal takes out one, or leaves a table without that handle as it is. -/
theorem represents_stored (calls : List (Call α))
    (room : (of calls).table.slots.size ≤ UInt32.size) :
    (of calls).table.Represents (stored calls) ∧
    (∀ build, ((of calls).table.insertWith build).slots.size ≤ UInt32.size →
      (of calls).table.Stored ((of calls).table.insertWith build) (of calls).table.upcoming
        (build (of calls).table.upcoming)) ∧
    ∀ h, if ((of calls).table.get? h).isSome then
        (of calls).table.TakenOut ((of calls).table.remove h) h
      else (of calls).table.remove h = (of calls).table := by
  have keeps : (of calls).table.Keeps (stored calls) := keeps_foldl calls keeps_empty room
  refine ⟨keeps.represents room, fun build more => stored_insertWith keeps.proper more, fun h => ?_⟩
  cases found : (of calls).table.get? h with
  | none => exact remove_of_get?_eq_none found
  | some v => exact keeps.takenOut found

/-- A slot is emptied and used again under its next generation, and a stale handle removes nothing. -/
theorem represents_reused :
    let calls : List (Call Nat) := [.insert fun _ => 5, .insert fun _ => 6, .remove ⟨0, 1⟩,
      .insert fun h => h.generation.toNat, .remove ⟨0, 1⟩]
    ((of calls).table.Represents [(⟨1, 1⟩, 6), (⟨0, 2⟩, 2)] ∧ (of calls).table.entries = [2, 6]) ∧
      (of calls).table.Stored ((of calls).table.insertWith fun _ => 7) ⟨2, 1⟩ 7 ∧
      (of calls).table.TakenOut ((of calls).table.remove ⟨1, 1⟩) ⟨1, 1⟩ ∧
      (of calls).table.remove ⟨0, 1⟩ = (of calls).table := by
  intro calls
  obtain ⟨represents, stores, removes⟩ := represents_stored calls (by decide)
  exact ⟨⟨represents, by decide⟩, stores (fun _ => 7) (by decide), removes ⟨1, 1⟩, removes ⟨0, 1⟩⟩

end History

end HandleTable
end LockManager
