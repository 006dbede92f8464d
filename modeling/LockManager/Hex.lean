set_option autoImplicit false

/-!
Numbers and bytes in lower-case hexadecimal.
-/

namespace LockManager

/-- The digits of `n` after `0x`, without padding. -/
def hex (n : Nat) : String := "0x" ++ String.ofList (Nat.toDigits 16 n)

/-- The digits of `n` after `0x`, padded with zeros to eight digits. -/
def hexWord (n : Nat) : String :=
  let digits := Nat.toDigits 16 n
  "0x" ++ String.ofList (List.replicate (8 - digits.length) '0' ++ digits)

abbrev Bytes := List UInt8

namespace Bytes

/-- Two digits a byte. -/
def toHex (bytes : Bytes) : String :=
  String.ofList (bytes.flatMap fun b =>
    [Nat.digitChar (b.toNat / 16), Nat.digitChar (b.toNat % 16)])

def hexDigit? (c : Char) : Option Nat :=
  if '0' ≤ c ∧ c ≤ '9' then some (c.toNat - '0'.toNat)
  else if 'a' ≤ c ∧ c ≤ 'f' then some (c.toNat - 'a'.toNat + 10)
  else if 'A' ≤ c ∧ c ≤ 'F' then some (c.toNat - 'A'.toNat + 10)
  else none

def ofHexDigits? : List Char → Option Bytes
  | [] => some []
  | [_] => none
  | high :: low :: rest => do
    let h ← hexDigit? high
    let l ← hexDigit? low
    return UInt8.ofNat (16 * h + l) :: (← ofHexDigits? rest)

def ofHex? (s : String) : Option Bytes := ofHexDigits? s.toList

/-- The text that the bytes spell in UTF-8, if they spell one. -/
def toText? (bytes : Bytes) : Option String := String.fromUTF8? ⟨bytes.toArray⟩

def ofText (s : String) : Bytes := s.toUTF8.data.toList

@[simp] theorem toText?_ofText (s : String) : (ofText s).toText? = some s := dif_pos s.isValidUTF8

end Bytes

end LockManager
