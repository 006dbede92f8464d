import LockManager.HandleTable

set_option autoImplicit false

/-!
Entries stored and removed again at once. The slot freed last takes them all, one generation after the
other, so the outcome of many rounds can be told without going through them.
-/

namespace LockManager

/-- How many generations a slot has before the first one comes again. -/
def generations : Nat := UInt32.size - 1

/-- The generation of a slot that has been freed `n` times. -/
def generationAfter (n : Nat) : UInt32 := UInt32.ofNat (n % generations + 1)

namespace HandleTable

variable {α : Type}

/-- The table after `n` entries have been stored, each removed before the next. -/
def churn (t : HandleTable α) : Nat → HandleTable α
  | 0 => t
  | n + 1 =>
    let slot : Slot α := { generation := generationAfter (t.upcoming.generation.toNat + n) }
    match t.free with
    | [] => { t with slots := t.slots.push slot, free := [t.upcoming.index] }
    | index :: _ => { t with slots := t.slots.modify index.toNat fun _ => slot }

end HandleTable

end LockManager
