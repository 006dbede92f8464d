import LockManager.Json

set_option autoImplicit false

/-!
The compact text of a JSON value. In strings the quote, the backslash and the control characters are
escaped, and nothing else. What is broken has no text and is written as `null`.
-/

namespace LockManager
namespace Json

def hexDigits (n : Nat) : List Char :=
  [Nat.digitChar (n / 4096 % 16), Nat.digitChar (n / 256 % 16), Nat.digitChar (n / 16 % 16),
    Nat.digitChar (n % 16)]

def escape (c : Char) : List Char :=
  match c with
  | '"' => ['\\', '"']
  | '\\' => ['\\', '\\']
  | '\x08' => ['\\', 'b']
  | '\x0c' => ['\\', 'f']
  | '\n' => ['\\', 'n']
  | '\r' => ['\\', 'r']
  | '\t' => ['\\', 't']
  | c => if c.toNat < 0x20 then '\\' :: 'u' :: hexDigits c.toNat else [c]

def writeString (s : String) : List Char := '"' :: (s.toList.flatMap escape ++ ['"'])

def writeNumeral (n : Numeral) : List Char :=
  let places := if n.places.isEmpty then [] else '.' :: n.places.map Nat.digitChar
  let exponent :=
    match n.exponent with
    | none => []
    | some e => 'e' :: (if e < 0 then ['-'] else []) ++ Nat.toDigits 10 e.natAbs
  (if n.negative then ['-'] else []) ++ Nat.toDigits 10 n.units ++ places ++ exponent

mutual

def write : Json → List Char
  | .null | .broken => ['n', 'u', 'l', 'l']
  | .bool true => ['t', 'r', 'u', 'e']
  | .bool false => ['f', 'a', 'l', 's', 'e']
  | .number n => writeNumeral n
  | .text s => writeString s
  | .list [] => ['[', ']']
  | .list (v :: rest) => '[' :: (write v ++ writeItems rest)
  | .record [] => ['\x7b', '\x7d']
  | .record ((k, v) :: rest) => '\x7b' :: (writeString k ++ ':' :: (write v ++ writeFields rest))

/-- The items after the first, with the closing bracket. -/
def writeItems : List Json → List Char
  | [] => [']']
  | v :: rest => ',' :: (write v ++ writeItems rest)

/-- The fields after the first, with the closing brace. -/
def writeFields : List (String × Json) → List Char
  | [] => ['\x7d']
  | (k, v) :: rest => ',' :: (writeString k ++ ':' :: (write v ++ writeFields rest))

end

def render (v : Json) : String := String.ofList v.write

end Json
end LockManager
