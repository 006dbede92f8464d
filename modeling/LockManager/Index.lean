set_option autoImplicit false

/-!
Finite maps as lists of pairs. A look-up sees one value per key, the one stored last.
-/

namespace LockManager

structure Index (α β : Type) where
  entries : List (α × β) := []
  deriving Repr

namespace Index

variable {α β : Type} [DecidableEq α]

def get? (m : Index α β) (k : α) : Option β := m.entries.lookup k

def erase (m : Index α β) (k : α) : Index α β := ⟨m.entries.filter (·.1 ≠ k)⟩

def insert (m : Index α β) (k : α) (v : β) : Index α β := ⟨(k, v) :: (m.erase k).entries⟩

/-- Keeps the entries whose key passes. -/
def restrict (m : Index α β) (keep : α → Bool) : Index α β := ⟨m.entries.filter (keep ·.1)⟩

def size (m : Index α β) : Nat := m.entries.length

theorem get?_restrict (m : Index α β) (keep : α → Bool) (k : α) :
    (m.restrict keep).get? k = if keep k then m.get? k else none := by
  obtain ⟨es⟩ := m
  simp only [restrict, get?]
  induction es with
  | nil => simp
  | cons e es ih =>
    obtain ⟨x, v⟩ := e
    by_cases hk : k = x
    · subst hk
      cases hp : keep k
      · rw [List.filter_cons_of_neg (by simp [hp]), ih, hp]
        rfl
      · simp [hp]
    · have hb : (k == x) = false := by simp [hk]
      cases hp : keep x
      · rw [List.filter_cons_of_neg (by simp [hp]), ih]
        simp only [List.lookup_cons, hb]
      · rw [List.filter_cons_of_pos (by simp [hp])]
        simp only [List.lookup_cons, hb, ih]

theorem get?_erase (m : Index α β) (k k' : α) :
    (m.erase k).get? k' = if k' = k then none else m.get? k' := by
  have h := m.get?_restrict (fun x => decide (x ≠ k)) k'
  simp only [restrict] at h
  simp only [erase, h]
  by_cases hk : k' = k <;> simp [hk]

theorem get?_insert (m : Index α β) (k k' : α) (v : β) :
    (m.insert k v).get? k' = if k' = k then some v else m.get? k' := by
  by_cases h : k' = k
  · simp [insert, get?, h]
  · have he := m.get?_erase k k'
    have hb : (k' == k) = false := by simp [h]
    simp only [get?, if_neg h] at he ⊢
    simp only [insert, List.lookup_cons, hb, he]

/-- What is stored under a new key can be taken out again. -/
theorem erase_insert {m : Index α β} {k : α}
    (unknown : m.get? k = none) (v : β) : (m.insert k v).erase k = m := by
  have kept : m.entries.filter (·.1 ≠ k) = m.entries := by
    refine List.filter_eq_self.mpr fun e inside => ?_
    have other : k ≠ e.1 := bne_iff_ne.mp (List.lookup_eq_none_iff.mp unknown e inside)
    exact decide_eq_true other.symm
  simp only [insert, erase, kept]
  rw [List.filter_cons_of_neg (by simp), kept]

/-- Storing under one key and taking out another go in any order. -/
theorem erase_insert_comm (m : Index α β) {k k' : α} (other : k' ≠ k) (v : β) :
    (m.insert k v).erase k' = (m.erase k').insert k v := by
  simp only [insert, erase]
  rw [List.filter_cons_of_pos (by simpa using other.symm), List.filter_filter, List.filter_filter]
  simp only [Bool.and_comm]

/-- Each key is stored once. -/
def Distinct (m : Index α β) : Prop := (m.entries.map Prod.fst).Nodup

namespace Distinct

variable {m : Index α β}

theorem erase (distinct : m.Distinct) (k : α) : (m.erase k).Distinct :=
  List.Sublist.nodup (List.filter_sublist.map Prod.fst) distinct

theorem insert (distinct : m.Distinct) (k : α) (v : β) : (m.insert k v).Distinct := by
  refine List.nodup_cons.mpr ⟨fun again => ?_, distinct.erase k⟩
  obtain ⟨e, inside, same⟩ := List.mem_map.mp again
  exact of_decide_eq_true (List.mem_filter.mp inside).2 same

/-- A look-up sees everything. -/
theorem get?_of_mem (distinct : m.Distinct) {k : α} {v : β} (inside : (k, v) ∈ m.entries) :
    m.get? k = some v := by
  obtain ⟨es⟩ := m
  simp only [Distinct, get?] at *
  induction es with
  | nil => cases inside
  | cons e es ih =>
    obtain ⟨once, rest⟩ := List.nodup_cons.mp distinct
    rcases List.mem_cons.mp inside with rfl | later
    · exact List.lookup_cons_self
    · have other : (k == e.1) = false :=
        beq_eq_false_iff_ne.mpr fun same => once (same ▸ List.mem_map_of_mem later)
      rw [List.lookup_cons, other]
      exact ih rest later

end Distinct

end Index

end LockManager
