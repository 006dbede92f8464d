import LockManager.Json.Numeral

set_option autoImplicit false

/-!
JSON values. A record keeps its fields in order of appearance, repeated ones included. A value is
`broken` if it keeps to the grammar, but a string that should be its text or the name of one of its
fields is no text.
-/

namespace LockManager

inductive Json where
  | null
  | bool (b : Bool)
  | number (n : Numeral)
  | text (s : String)
  | list (items : List Json)
  | record (fields : List (String × Json))
  | broken
  deriving Inhabited, Repr

namespace Json

def nat (n : Nat) : Json := .number { units := n }

/-- `null` for what is absent. -/
def ofOption {α : Type} (encode : α → Json) : Option α → Json
  | some a => encode a
  | none => .null

mutual

/-- How deep lists and records are nested. -/
def depth : Json → Nat
  | .list items => depthItems items + 1
  | .record fields => depthFields fields + 1
  | _ => 0

def depthItems : List Json → Nat
  | [] => 0
  | v :: rest => max (depth v) (depthItems rest)

def depthFields : List (String × Json) → Nat
  | [] => 0
  | (_, v) :: rest => max (depth v) (depthFields rest)

end

mutual

/-- Something in it is broken, or some number is too large for a double. -/
def flawed : Json → Bool
  | .number n => n.overflows
  | .list items => flawedItems items
  | .record fields => flawedFields fields
  | .broken => true
  | _ => false

def flawedItems : List Json → Bool
  | [] => false
  | v :: rest => flawed v || flawedItems rest

def flawedFields : List (String × Json) → Bool
  | [] => false
  | (_, v) :: rest => flawed v || flawedFields rest

end

end Json

end LockManager
