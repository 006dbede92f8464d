import LockManager.Json.Reader
import LockManager.Json.Writer
import Mathlib.Tactic.Common

set_option autoImplicit false

/-!
Reading gives back what has been written, whatever stands behind it. Strings and numbers come first, and
then values: a value begins with a character that tells of which kind it is, and what is written for it
is fuel enough to read it.
-/

namespace LockManager
namespace Json

/-! ### Strings -/

/-- The characters are read as one piece, and the piece stands for `c`. -/
structure Spells (cs : List Char) (p : Piece) (c : Char) : Prop where
  read : ∀ rest, readPieces (cs.map some ++ rest) =
    (readPieces rest).map fun (ps, rest) => (p :: ps, rest)
  join : ∀ ps, joinPieces (p :: ps) = (joinPieces ps).map (c :: ·)

theorem hexValue?_digitChar : ∀ n < 16, hexValue? (Nat.digitChar n) = some n := by decide

/-- Four digits give back what they were written for. -/
theorem unit?_hexDigits {n : Nat} (small : n < 65536) : ∃ a b c d,
    hexDigits n = [a, b, c, d] ∧ unit? a b c d = some n := by
  refine ⟨_, _, _, _, rfl, ?_⟩
  simp only [unit?, hexValue?_digitChar _ (Nat.mod_lt _ (by decide : 16 > 0)), Option.bind_eq_bind,
    Option.bind_some, Option.pure_def, Option.some.injEq]
  omega

/-- What the reader makes of the first piece: a letter after a backslash, a number there, or a character
that stands for itself. -/
theorem readPieces_first (rest : List Symbol) :
    (∀ {d c : Char}, unescape? d = some c → d ≠ 'u' →
      readPieces (some '\\' :: some d :: rest) =
        (readPieces rest).map fun (ps, rest) => (.char c :: ps, rest)) ∧
    (∀ {a b c d : Char} {n : Nat}, unit? a b c d = some n →
      readPieces (some '\\' :: some 'u' :: some a :: some b :: some c :: some d :: rest) =
        (readPieces rest).map fun (ps, rest) => (.unit n :: ps, rest)) ∧
    (∀ {c : Char}, ¬c.toNat < 0x20 → c ≠ '"' → c ≠ '\\' →
      readPieces (some c :: rest) =
        (readPieces rest).map fun (ps, rest) => (.char c :: ps, rest)) := by
  refine ⟨fun {d c} named other => ?_, fun {a b c d n} value => ?_,
    fun {c} large quote backslash => ?_⟩
  · rw [readPieces, named]
    · cases readPieces rest <;> rfl
    · exact fun _ _ _ _ _ _ same => other same
  · rw [readPieces, value]
    cases readPieces rest <;> rfl
  · rw [readPieces]
    · simp only [large, backslash, decide_false, Bool.or_self, Bool.false_eq_true, if_false]
      cases readPieces rest <;> rfl
    · exact quote
    · exact fun _ _ _ _ _ _ same => backslash same
    · exact fun _ _ _ same => backslash same

/-- A character that stands for itself after a backslash or is written with a letter there. -/
theorem spells_backslash {d c : Char} (named : unescape? d = some c) (other : d ≠ 'u') :
    Spells ['\\', d] (.char c) c :=
  ⟨fun rest => (readPieces_first rest).1 named other, fun _ => rfl⟩

/-- A control character that has no letter is written by number. -/
theorem spells_unit {c : Char} (small : c.toNat < 0x20) :
    Spells ('\\' :: 'u' :: hexDigits c.toNat) (.unit c.toNat) c := by
  have whole : isHighHalf c.toNat = false ∧ isLowHalf c.toNat = false := by
    simp only [isHighHalf, isLowHalf, Bool.and_eq_false_iff, decide_eq_false_iff_not]
    omega
  refine ⟨fun rest => ?_, fun ps => ?_⟩
  · obtain ⟨a, b, d, e, digits, value⟩ := unit?_hexDigits (n := c.toNat) (by omega)
    rw [digits]
    exact (readPieces_first rest).2.1 value
  · cases ps with
    | nil => simp [joinPieces, whole]
    | cons p ps => cases p <;> simp [joinPieces, whole]

theorem spells_self {c : Char} (large : ¬c.toNat < 0x20) (quote : c ≠ '"') (backslash : c ≠ '\\') :
    Spells [c] (.char c) c :=
  ⟨fun rest => (readPieces_first rest).2.2 large quote backslash, fun _ => rfl⟩

theorem exists_spells (c : Char) : ∃ p, Spells (escape c) p c := by
  unfold escape
  split
  case h_8 quote backslash _ _ _ _ _ =>
    split
    · next small => exact ⟨_, spells_unit small⟩
    · next large => exact ⟨_, spells_self large quote backslash⟩
  all_goals exact ⟨_, spells_backslash rfl (by decide)⟩

theorem readPieces_flatMap_escape (cs : List Char) (rest : List Symbol) :
    ∃ ps, readPieces ((cs.flatMap escape ++ ['"']).map some ++ rest) = some (ps, rest) ∧
      joinPieces ps = some cs := by
  induction cs with
  | nil => exact ⟨[], rfl, rfl⟩
  | cons c cs ih =>
    obtain ⟨ps, read, joined⟩ := ih
    obtain ⟨p, spells⟩ := exists_spells c
    refine ⟨p :: ps, ?_, ?_⟩
    · rw [List.flatMap_cons, List.append_assoc, List.map_append, List.append_assoc, spells.read, read]
      rfl
    · rw [spells.join, joined]
      rfl

/-- A string in quotes, behind the first of them. -/
theorem readString_write (s : String) (rest : List Symbol) :
    readString ((s.toList.flatMap escape ++ ['"']).map some ++ rest) = some (some s, rest) := by
  obtain ⟨ps, read, joined⟩ := readPieces_flatMap_escape s.toList rest
  unfold readString
  rw [read]
  dsimp only [Option.bind_eq_bind, Option.bind_some]
  rw [joined]
  simp

/-! ### Numbers -/

/-- A number does not go on with what comes first in `rest`. -/
def Stops (rest : List Symbol) : Prop :=
  ∀ c tail, rest = some c :: tail → c.isDigit = false ∧ c ≠ '.' ∧ c ≠ 'e' ∧ c ≠ 'E'

theorem takeDigits_append {cs : List Char} (digits : ∀ c ∈ cs, c.isDigit = true) {rest : List Symbol}
    (stops : Stops rest) :
    takeDigits (cs.map some ++ rest) = (cs.map fun c => c.toNat - '0'.toNat, rest) := by
  induction cs with
  | nil =>
    match rest with
    | [] => rfl
    | none :: tail => rfl
    | some c :: tail =>
      have none : digit? (some c) = none := by
        simp [digit?, (stops c tail rfl).1]
      simp only [List.map_nil, List.nil_append, takeDigits, none]
  | cons c cs ih =>
    have own : digit? (some c) = some (c.toNat - '0'.toNat) := if_pos (digits c List.mem_cons_self)
    simp only [List.map_cons, List.cons_append, takeDigits, own,
      ih fun d inside => digits d (List.mem_cons_of_mem c inside)]

theorem isDigit_of_mem {n : Nat} {c : Char} (inside : c ∈ Nat.toDigits 10 n) : c.isDigit = true :=
  Nat.isDigit_of_mem_toDigits (by decide) (by decide) inside

theorem exists_toDigits_eq_cons (n : Nat) :
    ∃ c cs, Nat.toDigits 10 n = c :: cs ∧ c.isDigit = true := by
  obtain ⟨c, cs, first⟩ := List.exists_cons_of_ne_nil (Nat.toDigits_ne_nil (n := n) (b := 10))
  exact ⟨c, cs, first, isDigit_of_mem (first ▸ List.mem_cons_self)⟩

theorem head?_toDigits {n : Nat} (positive : 0 < n) : (Nat.toDigits 10 n).head? ≠ some '0' := by
  induction n using Nat.strongRecOn with
  | ind n ih =>
    rcases Nat.lt_or_ge n 10 with small | large
    · rw [Nat.toDigits_of_lt_base small, List.head?_cons]
      have other : ∀ m < 10, 0 < m → some (Nat.digitChar m) ≠ some '0' := by decide
      exact other n small positive
    · rw [Nat.toDigits_of_base_le (by decide) large, List.head?_append,
        Option.or_of_isSome (by simp [List.isSome_head?, Nat.toDigits_ne_nil])]
      exact ih (n / 10) (by omega) (by omega)

/-- Natural numbers are written without leading zeros. -/
theorem readUnits_toDigits (n : Nat) {rest : List Symbol} (stops : Stops rest) :
    readUnits ((Nat.toDigits 10 n).map some ++ rest) = some (n, rest) := by
  have value : digitsValue ((Nat.toDigits 10 n).map fun c => c.toNat - '0'.toNat) = n := by
    rw [digitsValue, List.foldl_map]
    exact Nat.ofDigitChars_toDigits (by decide) (by decide)
  have leading : ((Nat.toDigits 10 n).map fun c => c.toNat - '0'.toNat).head? = some 0 →
      (Nat.toDigits 10 n).length ≤ 1 := by
    intro zero
    rcases Nat.eq_zero_or_pos n with rfl | positive
    · decide
    · obtain ⟨c, first, none⟩ := Option.map_eq_some_iff.mp (List.head?_map.symm.trans zero)
      have digit : c.isDigit = true := isDigit_of_mem (List.mem_of_mem_head? first)
      have least : 48 ≤ c.toNat := (Char.isDigit_iff_toNat.mp digit).1
      have zero : c = '0' := Char.toNat_inj.mp (Nat.le_antisymm (Nat.sub_eq_zero_iff_le.mp none) least)
      exact absurd (zero ▸ first) (head?_toDigits positive)
  unfold readUnits readDigits
  rw [takeDigits_append (fun _ => isDigit_of_mem) stops]
  simp only [List.isEmpty_map, List.isEmpty_eq_false_iff.mpr Nat.toDigits_ne_nil, Bool.false_eq_true,
    if_false, Option.bind_eq_bind, Option.bind_some, value]
  rw [if_neg]
  simp only [Bool.and_eq_true, decide_eq_true_eq, List.length_map]
  exact fun ⟨zero, long⟩ => Nat.not_lt_of_le (leading zero) long

theorem readNumeral_toDigits (n : Nat) {rest : List Symbol} (stops : Stops rest) :
    readNumeral ((Nat.toDigits 10 n).map some ++ rest) = some ({ units := n }, rest) := by
  have places : readPlaces rest = some ([], rest) := by
    unfold readPlaces
    split
    · next tail => exact absurd rfl (stops '.' tail rfl).2.1
    · rfl
  have exponent : readExponent rest = some (none, rest) := by
    unfold readExponent
    split
    · next tail => exact absurd rfl (stops 'e' tail rfl).2.2.1
    · next tail => exact absurd rfl (stops 'E' tail rfl).2.2.2
    · rfl
  have unsigned : readUnsigned false ((Nat.toDigits 10 n).map some ++ rest) =
      some ({ units := n }, rest) := by
    unfold readUnsigned
    rw [readUnits_toDigits n stops]
    simp only [Option.bind_eq_bind, Option.bind_some, places, exponent]
    rfl
  obtain ⟨c, cs, first, digit⟩ := exists_toDigits_eq_cons n
  rw [first] at unsigned ⊢
  unfold readNumeral
  split
  · next same =>
    obtain rfl : c = '-' := Option.some.inj (List.cons.inj same).1
    cases digit
  · exact unsigned

/-! ### Values -/

mutual

/-- Nothing in it is broken, and its numbers are words. -/
def basic : Json → Bool
  | .number n => n.natural?.any (· < UInt64.size)
  | .list items => basicItems items
  | .record fields => basicFields fields
  | .broken => false
  | _ => true

def basicItems : List Json → Bool
  | [] => true
  | v :: rest => basic v && basicItems rest

def basicFields : List (String × Json) → Bool
  | [] => true
  | (_, v) :: rest => basic v && basicFields rest

end

theorem natural?_eq_some {n : Numeral} {k : Nat} (natural : n.natural? = some k) :
    n = { units := k } := by
  obtain ⟨negative, units, places, exponent⟩ := n
  simp only [Numeral.natural?, Option.ite_none_right_eq_some, Bool.and_eq_true, List.isEmpty_iff,
    Option.isNone_iff_eq_none, Bool.not_eq_true', Option.some.injEq] at natural
  obtain ⟨⟨⟨rfl, rfl⟩, rfl⟩, rfl⟩ := natural
  rfl

theorem writeNumeral_nat (n : Nat) : writeNumeral { units := n } = Nat.toDigits 10 n := by
  simp [writeNumeral]

theorem skipSpace_cons {c : Char} (solid : isSpace c = false) (rest : List Symbol) :
    skipSpace (some c :: rest) = some c :: rest :=
  List.dropWhile_cons_of_neg (by simp [solid])

theorem expect_self {c : Char} (solid : isSpace c = false) (rest : List Symbol) :
    expect c (some c :: rest) = some rest := by
  unfold expect
  rw [skipSpace_cons solid]
  exact if_pos rfl

theorem expect_other {c d : Char} (solid : isSpace c = false) (other : c ≠ d) (rest : List Symbol) :
    expect d (some c :: rest) = none := by
  unfold expect
  rw [skipSpace_cons solid]
  exact if_neg fun same => other (Option.some.inj same)

theorem isSpace_digit {c : Char} (digit : c.isDigit = true) : isSpace c = false := by
  simp only [isSpace, Bool.or_eq_false_iff, decide_eq_false_iff_not]
  refine ⟨⟨⟨?_, ?_⟩, ?_⟩, ?_⟩
  all_goals
    rintro rfl
    cases digit

/-- Numbers begin like no other value. -/
theorem readValue_digit (fuel : Nat) {c : Char} (digit : c.isDigit = true) (rest : List Symbol) :
    readValue (fuel + 1) (some c :: rest) =
      (readNumeral (some c :: rest)).map fun (n, rest) => (.number n, rest) := by
  rw [readValue, skipSpace_cons (isSpace_digit digit)]
  split
  case h_7 => rfl
  all_goals
    next same =>
      obtain rfl := Option.some.inj (List.cons.inj same).1
      cases digit

/-- No value begins with a blank, or as lists end. -/
theorem exists_write_eq_cons {v : Json} (basic : v.basic = true) :
    ∃ c cs, v.write = c :: cs ∧ isSpace c = false ∧ c ≠ ']' := by
  match v with
  | .null => exact ⟨_, _, rfl, rfl, by decide⟩
  | .bool true => exact ⟨_, _, rfl, rfl, by decide⟩
  | .bool false => exact ⟨_, _, rfl, rfl, by decide⟩
  | .number n =>
    obtain ⟨k, natural, -⟩ := (Option.any_eq_true _ _).mp basic
    obtain rfl := natural?_eq_some natural
    obtain ⟨c, cs, first, digit⟩ := exists_toDigits_eq_cons k
    refine ⟨c, cs, (writeNumeral_nat k).trans first, isSpace_digit digit, ?_⟩
    rintro rfl
    cases digit
  | .text s => exact ⟨_, _, rfl, rfl, by decide⟩
  | .list [] => exact ⟨_, _, rfl, rfl, by decide⟩
  | .list (_ :: _) => exact ⟨_, _, rfl, rfl, by decide⟩
  | .record [] => exact ⟨_, _, rfl, rfl, by decide⟩
  | .record ((_, _) :: _) => exact ⟨_, _, rfl, rfl, by decide⟩

theorem stops_cons {c : Char} (digit : c.isDigit = false) (point : c ≠ '.') (mark : c ≠ 'e')
    (mark' : c ≠ 'E') (rest : List Symbol) : Stops (some c :: rest) := by
  rintro _ _ ⟨⟩
  exact ⟨digit, point, mark, mark'⟩

/-- What is written after an item or a field does not go on with a number. -/
theorem stops_writeItems (items : List Json) (rest : List Symbol) :
    Stops ((writeItems items).map some ++ rest) := by
  cases items <;> exact stops_cons rfl (by decide) (by decide) (by decide) _

theorem stops_writeFields (fields : List (String × Json)) (rest : List Symbol) :
    Stops ((writeFields fields).map some ++ rest) := by
  cases fields with
  | nil => exact stops_cons rfl (by decide) (by decide) (by decide) _
  | cons f fields => exact stops_cons rfl (by decide) (by decide) (by decide) _

/-! What is done with each beginning. -/

theorem readValue_quote (fuel : Nat) (rest : List Symbol) :
    readValue (fuel + 1) (some '"' :: rest) =
      (readString rest).map fun (s, rest) => (ofString s, rest) := rfl

theorem readValue_list (fuel : Nat) (rest : List Symbol) :
    readValue (fuel + 1) (some '[' :: rest) =
      match expect ']' rest with
      | some rest => some (.list [], rest)
      | none => do
        let (v, rest) ← readValue fuel rest
        let (vs, rest) ← readItems fuel rest
        return (.list (v :: vs), rest) := rfl

theorem readValue_bracket (fuel : Nat) {c : Char} (solid : isSpace c = false) (other : c ≠ ']')
    (rest : List Symbol) : readValue (fuel + 1) (some '[' :: some c :: rest) = (do
      let (v, rest) ← readValue fuel (some c :: rest)
      let (vs, rest) ← readItems fuel rest
      return (.list (v :: vs), rest)) := by
  rw [readValue_list, expect_other solid other]

theorem readValue_brace (fuel : Nat) (rest : List Symbol) :
    readValue (fuel + 1) (some '\x7b' :: some '"' :: rest) = (do
      let (f, rest) ← readField fuel (some '"' :: rest)
      let (fs, rest) ← readFields fuel rest
      return (ofFields (f :: fs), rest)) := rfl

theorem readItems_comma (fuel : Nat) (rest : List Symbol) :
    readItems (fuel + 1) (some ',' :: rest) = (do
      let (v, rest) ← readValue fuel rest
      let (vs, rest) ← readItems fuel rest
      return (v :: vs, rest)) := rfl

theorem readFields_comma (fuel : Nat) (rest : List Symbol) :
    readFields (fuel + 1) (some ',' :: rest) = (do
      let (f, rest) ← readField fuel rest
      let (fs, rest) ← readFields fuel rest
      return (f :: fs, rest)) := rfl

/-- A field with a name that has been read is one of the record. -/
theorem mapM_map_some (fields : List (String × Json)) :
    (fields.map fun (k, v) => (some k, v)).mapM
      (fun (k, v) => k.map (·, v) : Option String × Json → Option (String × Json)) = some fields := by
  induction fields with
  | nil => rfl
  | cons f fields ih => simp [List.mapM_cons, ih]

theorem ofFields_map_some (fields : List (String × Json)) :
    ofFields (fields.map fun (k, v) => (some k, v)) = .record fields := by
  unfold ofFields
  rw [mapM_map_some]

theorem readField_write {k : String} {v : Json} {fuel : Nat} {rest : List Symbol}
    (value : readValue fuel (v.write.map some ++ rest) = some (v, rest)) :
    readField (fuel + 1) ((writeString k).map some ++ some ':' :: (v.write.map some ++ rest)) =
      some ((some k, v), rest) := by
  have name := readString_write k (some ':' :: (v.write.map some ++ rest))
  simp only [writeString, List.map_cons, List.cons_append]
  rw [readField, expect_self rfl]
  simp only [Option.bind_eq_bind, Option.bind_some, name, expect_self (c := ':') rfl, value]
  rfl

mutual

theorem readValue_write (v : Json) (basic : v.basic = true) {n : Nat}
    (enough : v.write.length < n) {rest : List Symbol} (stops : Stops rest) :
    readValue n (v.write.map some ++ rest) = some (v, rest) := by
  obtain ⟨fuel, rfl⟩ := Nat.exists_eq_add_one_of_ne_zero (Nat.ne_zero_of_lt enough)
  match v with
  | .null | .bool true | .bool false | .list [] | .record [] => rfl
  | .number n =>
    obtain ⟨k, natural, -⟩ := (Option.any_eq_true _ _).mp basic
    obtain rfl := natural?_eq_some natural
    have read := readNumeral_toDigits k stops
    obtain ⟨c, cs, first, digit⟩ := exists_toDigits_eq_cons k
    rw [write, writeNumeral_nat]
    rw [first] at read ⊢
    simp only [List.map_cons, List.cons_append] at read ⊢
    rw [readValue_digit fuel digit, read]
    rfl
  | .text s =>
    simp only [write, writeString, List.map_cons, List.cons_append]
    rw [readValue_quote, readString_write]
    rfl
  | .list (v :: items) =>
    obtain ⟨own, others⟩ := (Bool.and_eq_true _ _).mp basic
    simp only [write, List.length_cons, List.length_append] at enough
    have first := readValue_write v own (n := fuel) (by omega) (stops_writeItems items rest)
    have later := readItems_write items others (n := fuel) (by omega) rest
    obtain ⟨c, cs, begins, solid, other⟩ := exists_write_eq_cons own
    simp only [write, List.map_cons, List.cons_append, List.map_append, List.append_assoc]
    rw [begins] at first ⊢
    simp only [List.map_cons, List.cons_append] at first ⊢
    rw [readValue_bracket fuel solid other, first]
    simp only [Option.bind_eq_bind, Option.bind_some, later]
    rfl
  | .record ((k, v) :: fields) =>
    obtain ⟨own, others⟩ := (Bool.and_eq_true _ _).mp basic
    simp only [write, List.length_cons, List.length_append] at enough
    obtain ⟨fuel, rfl⟩ : ∃ n, fuel = n + 1 := ⟨fuel - 1, by omega⟩
    have first := readField_write (k := k)
      (readValue_write v own (n := fuel) (by omega) (stops_writeFields fields rest))
    have later := readFields_write fields others (n := fuel + 1) (by omega) rest
    simp only [write, writeString, List.map_cons, List.cons_append, List.map_append, List.append_assoc]
      at first ⊢
    rw [readValue_brace, first]
    simp only [Option.bind_eq_bind, Option.bind_some, later]
    rw [← ofFields_map_some]
    rfl
  | .broken => cases basic

theorem readItems_write (items : List Json) (basic : basicItems items = true) {n : Nat}
    (enough : (writeItems items).length < n) (rest : List Symbol) :
    readItems n ((writeItems items).map some ++ rest) = some (items, rest) := by
  obtain ⟨fuel, rfl⟩ := Nat.exists_eq_add_one_of_ne_zero (Nat.ne_zero_of_lt enough)
  match items with
  | [] => rfl
  | v :: items =>
    obtain ⟨own, others⟩ := (Bool.and_eq_true _ _).mp basic
    simp only [writeItems, List.length_cons, List.length_append] at enough
    have first := readValue_write v own (n := fuel) (by omega) (stops_writeItems items rest)
    have later := readItems_write items others (n := fuel) (by omega) rest
    simp only [writeItems, List.map_cons, List.cons_append, List.map_append, List.append_assoc]
    rw [readItems_comma, first]
    simp only [Option.bind_eq_bind, Option.bind_some, later]
    rfl

theorem readFields_write (fields : List (String × Json)) (basic : basicFields fields = true) {n : Nat}
    (enough : (writeFields fields).length < n) (rest : List Symbol) :
    readFields n ((writeFields fields).map some ++ rest) =
      some (fields.map fun (k, v) => (some k, v), rest) := by
  obtain ⟨fuel, rfl⟩ := Nat.exists_eq_add_one_of_ne_zero (Nat.ne_zero_of_lt enough)
  match fields with
  | [] => rfl
  | (k, v) :: fields =>
    obtain ⟨own, others⟩ := (Bool.and_eq_true _ _).mp basic
    simp only [writeFields, List.length_cons, List.length_append] at enough
    obtain ⟨fuel, rfl⟩ : ∃ n, fuel = n + 1 := ⟨fuel - 1, by omega⟩
    have first := readField_write (k := k)
      (readValue_write v own (n := fuel) (by omega) (stops_writeFields fields rest))
    have later := readFields_write fields others (n := fuel + 1) (by omega) rest
    simp only [writeFields, List.map_cons, List.cons_append, List.map_append, List.append_assoc]
    rw [readFields_comma, first]
    simp only [Option.bind_eq_bind, Option.bind_some, later]
    rfl

end

/-- The text of a value spells it. -/
theorem ofBytes?_render {v : Json} (basic : v.basic = true) :
    ofBytes? (.ofText v.render) = some v := by
  have read : readValue _ (v.write.map some ++ []) = some (v, []) :=
    readValue_write v basic (Nat.lt_succ_self _) nofun
  rw [List.append_nil] at read
  rw [ofBytes?_ofText, ofText?, render, String.toList_ofList, read?, List.length_map, read]
  rfl

end Json
end LockManager
