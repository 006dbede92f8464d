import LockManager.Json

set_option autoImplicit false

/-!
Taking JSON values apart by the rules of the wire format. A structure is a record of its fields, in
any order and among others, or the list of its fields in order. A constant is its name, or a record
of its name without content. A tagged structure carries its kind in a field of its own, or as the
first item of the list; to find it the whole value has to be read ahead, which is possible only for
values that are not nested too deep and have no flaw. What is broken can only be passed over.
-/

namespace LockManager
namespace Json

/-- How a value is met: at a depth of the document, or as part of what has been read ahead. -/
inductive Stance where
  | direct (level : Nat)
  | ahead
  deriving DecidableEq, Repr

namespace Stance

def deeper : Stance → Stance
  | .direct level => .direct (level + 1)
  | .ahead => .ahead

/-- Deepest nesting that can be read ahead. -/
def depthLimit : Nat := 127

/-- The value can be read ahead. -/
def admits (stance : Stance) (v : Json) : Bool :=
  match stance with
  | .direct level => level + v.depth ≤ depthLimit && !v.flawed
  | .ahead => true

end Stance

/-- What it means that a field is missing. In a list only fields with a default may be missing. -/
inductive Presence where
  | required
  | nullable
  | defaulted
  deriving DecidableEq, Repr

structure Field where
  name : String
  presence : Presence := .required
  deriving DecidableEq, Repr

/-- The value of a field of a record, if the field may be as it is. -/
def field? (fields : List (String × Json)) (f : Field) : Option (Option Json) :=
  match fields.filter (·.1 = f.name) with
  | [] => if f.presence = .required then none else some none
  | [(_, v)] => some (some v)
  | _ => none

/-- The items of a list as the values of the fields. -/
def inOrder? : List Field → List Json → Option (List (Option Json))
  | [], [] => some []
  | [], _ :: _ => none
  | f :: fs, [] => if f.presence = .defaulted then (inOrder? fs []).map (none :: ·) else none
  | _ :: fs, v :: vs => (inOrder? fs vs).map (some v :: ·)

/-- The values of the fields of a structure. -/
def fields? (spec : List Field) : Json → Option (List (Option Json))
  | .record fields => spec.mapM (field? fields)
  | .list items => inOrder? spec items
  | _ => none

/-- The kind of a tagged structure, and the rest of it. -/
def tagged? (stance : Stance) (tag : String) (v : Json) : Option (Json × Json) :=
  if stance.admits v then
    match v with
    | .record fields =>
      match fields.filter (·.1 = tag) with
      | [(_, kind)] => some (kind, .record (fields.filter (·.1 ≠ tag)))
      | _ => none
    | .list (kind :: rest) => some (kind, .list rest)
    | _ => none
  else none

/-- A value that stands for nothing. -/
def blank (stance : Stance) : Json → Bool
  | .null => true
  | .record [] => stance = .ahead
  | _ => false

/-- One of some constants. -/
def choice? {α : Type} (stance : Stance) (all : List α) (name : α → String) : Json → Option α
  | .text s => all.find? (name · = s)
  | .record [(s, v)] => if blank stance v then all.find? (name · = s) else none
  | _ => none

def text? : Json → Option String
  | .text s => some s
  | _ => none

def bool? : Json → Option Bool
  | .bool b => some b
  | _ => none

def list? : Json → Option (List Json)
  | .list vs => some vs
  | _ => none

def natural? (bound : Nat) : Json → Option Nat
  | .number n => n.natural?.filter (· < bound)
  | _ => none

def word? (v : Json) : Option UInt64 := (natural? UInt64.size v).map UInt64.ofNat

def halfWord? (v : Json) : Option UInt32 := (natural? UInt32.size v).map UInt32.ofNat

/-- A value that may be missing or `null`. -/
def optional? {α : Type} (decode : Json → Option α) : Option Json → Option (Option α)
  | none | some .null => some none
  | some v => (decode v).map some

def ofWord (n : UInt64) : Json := nat n.toNat

end Json
end LockManager
