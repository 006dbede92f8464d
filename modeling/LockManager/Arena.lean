set_option autoImplicit false

/-!
Records that are allocated once, changed in place and never freed. A record is named by its
position, so of two records the one allocated later has the larger name.
-/

namespace LockManager

structure Arena (α : Type) where
  records : Array α := #[]

namespace Arena

variable {α : Type}

def size (a : Arena α) : Nat := a.records.size

def get [Inhabited α] (a : Arena α) (i : Nat) : α := a.records.getD i default

def alloc (a : Arena α) (x : α) : Arena α := ⟨a.records.push x⟩

def modify (a : Arena α) (i : Nat) (f : α → α) : Arena α := ⟨a.records.modify i f⟩

@[simp] theorem size_alloc (a : Arena α) (x : α) : (a.alloc x).size = a.size + 1 :=
  Array.size_push x

@[simp] theorem size_modify (a : Arena α) (i : Nat) (f : α → α) : (a.modify i f).size = a.size :=
  Array.size_modify

theorem modify_alloc (a : Arena α) (x : α) (f : α → α) :
    (a.alloc x).modify a.size f = a.alloc (f x) := by
  refine congrArg Arena.mk (Array.ext (by simp [alloc]) fun i _ _ => ?_)
  simp only [alloc, size, Array.getElem_modify, Array.getElem_push]
  grind

/-- Changing one record and making another go in any order. -/
theorem modify_alloc_of_lt (a : Arena α) {i : Nat} (known : i < a.size) (x : α) (f : α → α) :
    (a.alloc x).modify i f = (a.modify i f).alloc x := by
  refine congrArg Arena.mk (Array.ext (by simp [alloc, modify]) fun j _ _ => ?_)
  simp only [alloc, modify, size, Array.getElem_modify, Array.getElem_push, Array.size_modify] at *
  grind

theorem modify_comm (a : Arena α) {i j : Nat} (other : i ≠ j) (f g : α → α) :
    (a.modify i f).modify j g = (a.modify j g).modify i f := by
  refine congrArg Arena.mk (Array.ext (by simp [modify]) fun n _ _ => ?_)
  simp only [modify, Array.getElem_modify]
  grind

variable [Inhabited α]

@[simp] theorem get_alloc_size (a : Arena α) (x : α) : (a.alloc x).get a.size = x := by
  simp [alloc, size, get]

/-- Names beyond the last record all stand for the same. -/
theorem get_alloc (a : Arena α) (x : α) (i : Nat) :
    (a.alloc x).get i = if i = a.size then x else a.get i := by
  by_cases last : i = a.size
  · rw [if_pos last, last, get_alloc_size]
  · rw [if_neg last]
    simp only [alloc, get, size, Array.getD_eq_getD_getElem?, Array.getElem?_push] at last ⊢
    rw [if_neg last]

theorem get_beyond (a : Arena α) {i : Nat} (beyond : ¬i < a.size) : a.get i = default := by
  unfold get
  rw [Array.getD_eq_getD_getElem?, Array.getElem?_eq_none (Nat.le_of_not_lt beyond)]
  rfl

theorem get_modify (a : Arena α) (i j : Nat) (f : α → α) :
    (a.modify i f).get j = if i = j ∧ i < a.size then f (a.get j) else a.get j := by
  simp only [modify, get, size, Array.getD_eq_getD_getElem?, Array.getElem?_modify]
  by_cases h : i = j
  · subst h
    by_cases hi : i < a.records.size
    · simp [hi]
    · simp [hi]
  · simp [h]

theorem get_modify_of_ne (a : Arena α) {i j : Nat} (f : α → α) (h : i ≠ j) :
    (a.modify i f).get j = a.get j := by
  simp [get_modify, h]

theorem get_modify_self (a : Arena α) {i : Nat} (f : α → α) (h : i < a.size) :
    (a.modify i f).get i = f (a.get i) := by
  simp [get_modify, h]

end Arena

end LockManager
