import LockManager.Proofs.HandleTable.History

set_option autoImplicit false

/-!
Many rounds of storing an entry and removing it, told in one step. A slot that has gone through all of
its generations that way issues its first handle again.
-/

namespace LockManager
namespace HandleTable

variable {α : Type} {t : HandleTable α} {build : Handle → α} {index : UInt32} {rest : List UInt32}

/-- Stores an entry and removes it. -/
def round (build : Handle → α) (t : HandleTable α) : HandleTable α :=
  (t.insertWith build).remove t.upcoming

theorem round_reused {g : UInt32} (free : t.free = index :: rest)
    (empty : t.slots[index.toNat]? = some ⟨g, none⟩) :
    t.round build = { t with
      slots := t.slots.modify index.toNat fun _ => { generation := nextGeneration g } } := by
  have number : t.upcoming = ⟨index, g⟩ := by
    simp only [upcoming, free, Array.getD_eq_getD_getElem?, empty, Option.getD_some]
  have stored : (t.insertWith build).get? ⟨index, g⟩ = some (build ⟨index, g⟩) := by
    apply get?_eq_some.2
    simp only [insertWith, free, number]
    rw [Array.getElem?_modify]
    simp [empty]
  simp only [round, number, remove, stored]
  simp only [insertWith, free, number, Nat.add_sub_cancel]
  congr 1
  apply Array.ext_getElem?
  intro k
  simp only [Array.getElem?_modify]
  split
  · next here => simp [← here, empty]
  · rfl

theorem round_new (free : t.free = []) (room : t.slots.size < UInt32.size) :
    t.round build = { t with
      slots := t.slots.push { generation := nextGeneration 1 }, free := [t.upcoming.index] } := by
  have number : t.upcoming = ⟨UInt32.ofNat t.slots.size, 1⟩ := by
    simp only [upcoming, free]
  have small : (UInt32.ofNat t.slots.size).toNat = t.slots.size :=
    UInt32.toNat_ofNat_of_lt' room
  have stored : (t.insertWith build).get? t.upcoming = some (build t.upcoming) := by
    apply get?_eq_some.2
    simp [insertWith, free, number, small]
  simp only [round, remove, stored]
  simp only [insertWith, free, number, small, Nat.add_sub_cancel]
  congr 1
  apply Array.ext_getElem?
  intro k
  simp only [Array.getElem?_modify, Array.getElem?_push]
  split
  · next here => simp [here]
  · next other => simp [Ne.symm other]

theorem nextGeneration_eq {g : UInt32} (issued : g ≠ 0) :
    nextGeneration g = generationAfter g.toNat := by
  have positive : g.toNat ≠ 0 := mt (UInt32.toNat_inj (b := 0)).1 issued
  have small := g.toNat_lt
  have itself : generationAfter (g.toNat - 1) = g := by
    apply UInt32.toNat_inj.1
    rw [toNat_generationAfter]
    simp only [generations, UInt32.size]
    omega
  calc nextGeneration g
    _ = nextGeneration (generationAfter (g.toNat - 1)) := by rw [itself]
    _ = generationAfter (g.toNat - 1 + 1) := nextGeneration_generationAfter _
    _ = generationAfter g.toNat := by rw [Nat.sub_add_cancel (Nat.pos_of_ne_zero positive)]

/-- The rounds make a slot, and use it from then on. -/
theorem churn_succ_new (free : t.free = []) (room : t.slots.size < UInt32.size)
    (build : Handle → α) (n : Nat) : t.churn (n + 1) = (t.churn n).round build := by
  have number : t.upcoming = ⟨UInt32.ofNat t.slots.size, 1⟩ := by
    simp only [upcoming, free]
  have small : (UInt32.ofNat t.slots.size).toNat = t.slots.size := UInt32.toNat_ofNat_of_lt' room
  cases n with
  | zero =>
    rw [churn, round_new free room]
    simp only [churn, free, number]
    rfl
  | succ n =>
    have last : (t.churn (n + 1)).slots[(UInt32.ofNat t.slots.size).toNat]?
        = some ⟨generationAfter (1 + n), none⟩ := by
      simp [churn, free, number, small]
    have again : (t.churn (n + 1)).free = [UInt32.ofNat t.slots.size] := by
      simp [churn, free, number]
    rw [round_reused again last, nextGeneration_generationAfter]
    simp only [churn, free, number, small]
    congr 1
    apply Array.ext_getElem?
    intro k
    simp only [Array.getElem?_modify, Array.getElem?_push]
    split
    · next here => simp [here, Nat.add_assoc]
    · next other => simp [Ne.symm other]

/-- The rounds use the slot that was freed last. -/
theorem churn_succ_reused {g : UInt32} (free : t.free = index :: rest)
    (empty : t.slots[index.toNat]? = some ⟨g, none⟩) (issued : g ≠ 0) (build : Handle → α)
    (n : Nat) : t.churn (n + 1) = (t.churn n).round build := by
  have number : t.upcoming = ⟨index, g⟩ := by
    simp only [upcoming, free, Array.getD_eq_getD_getElem?, empty, Option.getD_some]
  cases n with
  | zero =>
    rw [churn, round_reused free empty]
    simp only [churn, free, number, nextGeneration_eq issued]
    rfl
  | succ n =>
    have last : (t.churn (n + 1)).slots[index.toNat]?
        = some ⟨generationAfter (g.toNat + n), none⟩ := by
      simp only [churn, free, number]
      rw [Array.getElem?_modify]
      simp [empty]
    have again : (t.churn (n + 1)).free = index :: rest := by
      simp [churn, free]
    rw [round_reused again last, nextGeneration_generationAfter]
    simp only [churn, free, number]
    congr 1
    apply Array.ext_getElem?
    intro k
    simp only [Array.getElem?_modify]
    split
    · next here => simp [← here, empty, Nat.add_assoc]
    · rfl

/-- One more round is one generation more. -/
theorem churn_succ (proper : t.Proper) (numbered : t.Numbered)
    (room : t.free = [] → t.slots.size < UInt32.size) (build : Handle → α) (n : Nat) :
    t.churn (n + 1) = (t.churn n).round build := by
  cases free : t.free with
  | nil => exact churn_succ_new free (room free) build n
  | cons index rest =>
    obtain ⟨g, empty⟩ := proper.empty index (free ▸ List.mem_cons_self)
    exact churn_succ_reused free empty (numbered index.toNat _ empty) build n

theorem churn_eq (proper : t.Proper) (numbered : t.Numbered)
    (room : t.free = [] → t.slots.size < UInt32.size) (build : Handle → α) (n : Nat) :
    t.churn n = (round build)^[n] t := by
  induction n with
  | zero => rfl
  | succ n ih => rw [Function.iterate_succ_apply', churn_succ proper numbered room build, ih]

namespace History

/-- `n` rounds on one slot, as calls. -/
def rounds (n : Nat) : List (Call Unit) :=
  (List.range n).flatMap fun k => [.insert fun _ => (), .remove (handleAt 0 k)]

theorem upcoming_churn (n : Nat) : (({} : HandleTable Unit).churn n).upcoming = handleAt 0 n := by
  cases n with
  | zero => rfl
  | succ n => simp [churn, upcoming, handleAt, Nat.add_comm]

theorem size_churn_le (n : Nat) : (({} : HandleTable Unit).churn n).slots.size ≤ 1 := by
  cases n <;> simp [churn]

theorem of_rounds (n : Nat) :
    (of (rounds n)).table = ({} : HandleTable Unit).churn n ∧
      (of (rounds n)).removed = (List.range n).map (handleAt 0) := by
  induction n with
  | zero => exact ⟨rfl, rfl⟩
  | succ n ih =>
    obtain ⟨table, removed⟩ := ih
    have more : rounds (n + 1) = rounds n ++ [.insert fun _ => (), .remove (handleAt 0 n)] := by
      simp [rounds, List.range_succ]
    have number : (of (rounds n)).table.upcoming = handleAt 0 n := by
      rw [table, upcoming_churn]
    have small : (of (rounds n)).table.slots.size ≤ UInt32.size := by
      rw [table]
      exact (size_churn_le n).trans (by decide)
    have proper := (slotted_of (rounds n) small).1
    have room : ((of (rounds n)).table.insertWith fun _ => ()).slots.size ≤ UInt32.size := by
      apply size_insertWith_le small
      intro _
      rw [table]
      exact Nat.lt_of_le_of_lt (size_churn_le n) (by decide)
    have stored := get?_insertWith proper room (handleAt 0 n)
    rw [if_pos number.symm] at stored
    rw [more, of_append]
    constructor
    · have start : ({} : HandleTable Unit).free = [] →
          ({} : HandleTable Unit).slots.size < UInt32.size := fun _ => by decide
      rw [churn_succ proper_empty numbered_empty start fun _ => (), ← table, round, number]
      rfl
    · simp only [List.foldl_cons, List.foldl_nil, call, stored, Option.isSome_some, if_true,
        removed, List.range_succ, List.map_append, List.map_singleton]

/-- When its only slot has gone through all generations, a table takes the first handle that it gave
out for one that it never issued, and issues it again. -/
theorem first_handle_comes_again :
    let s := of (rounds generations)
    (⟨0, 1⟩ : Handle) ∈ s.removed ∧ s.table.status ⟨0, 1⟩ = .unknown ∧
      s.table.upcoming = ⟨0, 1⟩ ∧ (s.call (.insert fun _ => ())).table.get? ⟨0, 1⟩ = some () := by
  obtain ⟨table, removed⟩ := of_rounds generations
  have whole : generations = generations - 1 + 1 := by decide
  have wrapped : generationAfter (1 + (generations - 1)) = 1 := by decide
  have again : ({} : HandleTable Unit).churn generations = { slots := #[{}], free := [0] } := by
    rw [whole]
    simp [churn, upcoming, wrapped]
  dsimp only
  rw [table, again, removed]
  refine ⟨?_, rfl, rfl, ?_⟩
  · exact List.mem_map.2 ⟨0, List.mem_range.2 (by decide), rfl⟩
  · simp only [call, table, again]
    rfl

end History

end HandleTable
end LockManager
