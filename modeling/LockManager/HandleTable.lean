import LockManager.Handle

set_option autoImplicit false

/-!
A table of entries named by handles. A slot whose entry is removed moves to its next generation, so
the handles issued for it before no longer resolve; freed slots are reused last freed first.
-/

namespace LockManager

structure Slot (α : Type) where
  generation : UInt32 := 1
  entry : Option α := none
  deriving Repr, DecidableEq

/-- The generation after `g`. Generation 0 is never issued. -/
def nextGeneration (g : UInt32) : UInt32 := if g + 1 = 0 then 1 else g + 1

inductive HandleStatus (α : Type) where
  | live (entry : α)
  | retired
  | unknown
  deriving Repr, DecidableEq

structure HandleTable (α : Type) where
  slots : Array (Slot α) := #[]
  /-- Empty slots, the last freed first. -/
  free : List UInt32 := []
  live : Nat := 0
  deriving Repr

namespace HandleTable

variable {α : Type}

/-- The handle that the next insertion issues. -/
def upcoming (t : HandleTable α) : Handle :=
  match t.free with
  | [] => ⟨UInt32.ofNat t.slots.size, 1⟩
  | index :: _ => ⟨index, (t.slots.getD index.toNat {}).generation⟩

/-- Stores the entry built for the issued handle. -/
def insertWith (t : HandleTable α) (build : Handle → α) : HandleTable α :=
  let entry := some (build t.upcoming)
  match t.free with
  | [] => { t with slots := t.slots.push { entry }, live := t.live + 1 }
  | index :: free =>
    { t with
      slots := t.slots.modify index.toNat ({ · with entry }), free, live := t.live + 1 }

def get? (t : HandleTable α) (h : Handle) : Option α :=
  match t.slots[h.index.toNat]? with
  | none => none
  | some slot => if slot.generation = h.generation then slot.entry else none

/-- Tells handles issued and removed from handles never issued, by their generation. -/
def status (t : HandleTable α) (h : Handle) : HandleStatus α :=
  match t.slots[h.index.toNat]? with
  | none => .unknown
  | some slot =>
    if h.generation = 0 then .unknown
    else if slot.generation = h.generation then
      match slot.entry with
      | some entry => .live entry
      | none => .unknown
    else if h.generation < slot.generation then .retired
    else .unknown

/-- Leaves the table as it is if the handle is not live. -/
def remove (t : HandleTable α) (h : Handle) : HandleTable α :=
  match t.get? h with
  | none => t
  | some _ =>
    { slots := t.slots.modify h.index.toNat fun slot => ⟨nextGeneration slot.generation, none⟩
      free := h.index :: t.free
      live := t.live - 1 }

/-- Live entries in slot order. -/
def entries (t : HandleTable α) : List α := t.slots.toList.filterMap (·.entry)

end HandleTable

end LockManager
