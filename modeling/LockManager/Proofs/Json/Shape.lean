import LockManager.Json.Shape
import LockManager.Proofs.Json.RoundTrip

set_option autoImplicit false

/-!
Taking apart what has been put together. A value whose numbers are words has no flaw, so it can be read
ahead if it is not nested too deep.
-/

namespace LockManager

namespace Numeral

theorem nearest_le (n : Nat) : nearest n ≤ 2 * n := by
  unfold nearest
  split
  · omega
  · next large =>
    have positive : n ≠ 0 := by
      rintro rfl
      exact large (by decide)
    generalize size : Nat.pow 2 (n.log2 - 52) = unit
    have below : unit ≤ n := by
      rw [← size]
      exact Nat.le_trans (Nat.pow_le_pow_right (by decide) (Nat.sub_le n.log2 52))
        (Nat.log2_self_le positive)
    have whole : n / unit * unit ≤ n := Nat.div_mul_le_self n unit
    dsimp only
    split
    · rw [Nat.add_mul]
      omega
    · omega

/-- A word is not too large for a double. -/
theorem overflows_word {n : Nat} (word : n < UInt64.size) : overflows { units := n } = false := by
  have scaled : scaled { units := n } = (n, 0) := by
    unfold Numeral.scaled
    rw [leading, dif_pos word]
    rfl
  have bound : nearest n * nearest (Nat.pow 10 0) < doubleBound := by
    have one : nearest (Nat.pow 10 0) = 1 := by decide
    have least := nearest_le n
    have large : 2 * UInt64.size ≤ doubleBound := by decide +kernel
    rw [one, Nat.mul_one]
    omega
  unfold overflows
  rw [scaled]
  simp only [Int.toNat_zero, gt_iff_lt, Nat.not_lt_zero, ge_iff_le, Nat.not_le_of_lt bound, decide_false,
    Bool.or_self, Bool.and_false]

end Numeral

namespace Json

mutual

theorem flawed_of_basic (v : Json) (basic : v.basic = true) : v.flawed = false := by
  match v with
  | .null | .bool _ | .text _ => rfl
  | .number n =>
    obtain ⟨k, natural, word⟩ := (Option.any_eq_true _ _).mp basic
    obtain rfl := natural?_eq_some natural
    exact Numeral.overflows_word (of_decide_eq_true word)
  | .list items => exact flawedItems_of_basic items basic
  | .record fields => exact flawedFields_of_basic fields basic
  | .broken => cases basic

theorem flawedItems_of_basic (items : List Json) (basic : basicItems items = true) :
    flawedItems items = false := by
  match items with
  | [] => rfl
  | v :: items =>
    obtain ⟨own, others⟩ := (Bool.and_eq_true _ _).mp basic
    rw [flawedItems, flawed_of_basic v own, flawedItems_of_basic items others]
    rfl

theorem flawedFields_of_basic (fields : List (String × Json)) (basic : basicFields fields = true) :
    flawedFields fields = false := by
  match fields with
  | [] => rfl
  | (_, v) :: fields =>
    obtain ⟨own, others⟩ := (Bool.and_eq_true _ _).mp basic
    rw [flawedFields, flawed_of_basic v own, flawedFields_of_basic fields others]
    rfl

end

/-- No flaw, and nested at most `d` deep. -/
structure Within (d : Nat) (v : Json) : Prop where
  basic : v.basic = true
  shallow : v.depth ≤ d

namespace Within

variable {d : Nat}

theorem text (s : String) : Within d (.text s) := ⟨rfl, Nat.zero_le d⟩

theorem ofWord (n : UInt64) : Within d (.ofWord n) := ⟨decide_eq_true n.toNat_lt, Nat.zero_le d⟩

theorem ofHalfWord (n : UInt32) : Within d (.nat n.toNat) :=
  ⟨decide_eq_true (Nat.lt_trans n.toNat_lt (by decide)), Nat.zero_le d⟩

theorem ofOption {α : Type} {encode : α → Json} (every : ∀ a, Within d (encode a)) (x : Option α) :
    Within d (.ofOption encode x) := by
  cases x with
  | none => exact ⟨rfl, Nat.zero_le d⟩
  | some a => exact every a

theorem fields {fields : List (String × Json)} (every : ∀ f ∈ fields, Within d f.2) :
    basicFields fields = true ∧ depthFields fields ≤ d := by
  induction fields with
  | nil => exact ⟨rfl, Nat.zero_le d⟩
  | cons f fields ih =>
    obtain ⟨own, others⟩ := List.forall_mem_cons.mp every
    obtain ⟨basic, shallow⟩ := ih others
    exact ⟨(Bool.and_eq_true _ _).mpr ⟨own.basic, basic⟩, Nat.max_le.mpr ⟨own.shallow, shallow⟩⟩

theorem record {fields : List (String × Json)} (every : ∀ f ∈ fields, Within d f.2) :
    Within (d + 1) (.record fields) :=
  have ⟨basic, shallow⟩ := Within.fields every
  ⟨basic, Nat.succ_le_succ shallow⟩

end Within

variable {α : Type} {stance : Stance}

theorem Within.admits {d level : Nat} {v : Json} (within : v.Within d)
    (shallow : level + d ≤ Stance.depthLimit) : (Stance.direct level).admits v = true := by
  have nested : level + v.depth ≤ Stance.depthLimit :=
    Nat.le_trans (Nat.add_le_add_left within.shallow level) shallow
  simp [Stance.admits, nested, flawed_of_basic v within.basic]

/-- A tagged structure is told by the field that comes first. -/
theorem tagged?_record (stance : Stance) {tag : String} {kind : Json} {fields : List (String × Json)}
    (admitted : stance.admits (.record ((tag, kind) :: fields)) = true)
    (once : ∀ f ∈ fields, f.1 ≠ tag) :
    tagged? stance tag (.record ((tag, kind) :: fields)) = some (kind, .record fields) := by
  have none : fields.filter (·.1 = tag) = [] :=
    List.filter_eq_nil_iff.mpr fun f inside => by simp [once f inside]
  have all : fields.filter (·.1 ≠ tag) = fields :=
    List.filter_eq_self.mpr fun f inside => by simp [once f inside]
  unfold tagged?
  rw [if_pos admitted]
  simp only [List.filter_cons, decide_true, if_true, none, all, ne_eq, not_true_eq_false, decide_false,
    Bool.false_eq_true, if_false]

theorem filter_name {fields : List (String × Json)} (apart : (fields.map (·.1)).Nodup)
    {f : String × Json} (inside : f ∈ fields) : fields.filter (·.1 = f.1) = [f] := by
  induction fields with
  | nil => cases inside
  | cons g fields ih =>
    obtain ⟨new, apart⟩ := List.nodup_cons.mp apart
    cases inside with
    | head =>
      have none : fields.filter (·.1 = f.1) = [] := List.filter_eq_nil_iff.mpr fun h other same =>
        new (List.mem_map.mpr ⟨h, other, of_decide_eq_true same⟩)
      rw [List.filter_cons_of_pos (by simp), none]
    | tail _ inside =>
      have differs : g.1 ≠ f.1 := fun same => new (List.mem_map.mpr ⟨f, inside, same.symm⟩)
      rw [List.filter_cons_of_neg (by simpa using differs), ih apart inside]

theorem mapM_field? {fields : List (String × Json)} (apart : (fields.map (·.1)).Nodup)
    {given : List (String × Json)} (inside : ∀ f ∈ given, f ∈ fields) {spec : List Field}
    (names : given.map (·.1) = spec.map (·.name)) :
    spec.mapM (field? fields) = some (given.map fun f => some f.2) := by
  induction given generalizing spec with
  | nil =>
    obtain rfl := List.map_eq_nil_iff.mp names.symm
    rfl
  | cons f given ih =>
    obtain ⟨own, others⟩ := List.forall_mem_cons.mp inside
    obtain ⟨wanted, spec, rfl, name, names⟩ := List.map_eq_cons_iff.mp names.symm
    have alone : fields.filter (·.1 = wanted.name) = [f] := by
      rw [name]
      exact filter_name apart own
    simp [List.mapM_cons, field?, alone, ih others names.symm]

/-- A structure is told by its fields. -/
theorem fields?_record {spec : List Field} {fields : List (String × Json)}
    (names : fields.map (·.1) = spec.map (·.name)) (apart : (fields.map (·.1)).Nodup) :
    fields? spec (.record fields) = some (fields.map fun f => some f.2) :=
  mapM_field? apart (fun _ inside => inside) names

/-- A constant is told by its name, if no two have the same. -/
theorem choice?_text {all : List α} {name : α → String}
    (apart : ∀ a ∈ all, ∀ b ∈ all, name b = name a → b = a) {a : α} (inside : a ∈ all) :
    choice? stance all name (.text (name a)) = some a := by
  cases found : all.find? (name · = name a) with
  | none => exact absurd (decide_eq_true rfl) (List.find?_eq_none.mp found a inside)
  | some b =>
    have named : name b = name a := by simpa using List.find?_some found
    have same := apart a inside b (List.mem_of_find?_eq_some found) named
    exact found.trans (congrArg some same)

@[simp] theorem word?_ofWord (n : UInt64) : word? (ofWord n) = some n := by
  have small : n.toNat < UInt64.size := n.toNat_lt
  simp [word?, ofWord, nat, natural?, Numeral.natural?, Option.filter, small]

@[simp] theorem halfWord?_nat (n : UInt32) : halfWord? (nat n.toNat) = some n := by
  have small : n.toNat < UInt32.size := n.toNat_lt
  simp [halfWord?, nat, natural?, Numeral.natural?, Option.filter, small]

/-- What may be absent, if its value is never written as `null`. -/
theorem optional?_ofOption {encode : α → Json} {decode : Json → Option α}
    (back : ∀ a, decode (encode a) = some a) (present : ∀ a, encode a ≠ .null) (x : Option α) :
    optional? decode (some (ofOption encode x)) = some x := by
  cases x with
  | none => rfl
  | some a =>
    unfold optional?
    split
    · next absent => cases absent
    · next absent => exact absurd (Option.some.inj absent) (present a)
    · next same => rw [← Option.some.inj same, ofOption, back, Option.map_some]

end Json
end LockManager
