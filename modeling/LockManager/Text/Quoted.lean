import LockManager.Text.Hidden

set_option autoImplicit false

/-!
Text in quotes, in which every character can be told: quotes and backslashes are escaped, and hidden
characters are shown by number.
-/

namespace LockManager
namespace Text

def showChar (c : Char) : List Char :=
  match c with
  | '\x00' => ['\\', '0']
  | '\t' => ['\\', 't']
  | '\n' => ['\\', 'n']
  | '\r' => ['\\', 'r']
  | '"' => ['\\', '"']
  | '\\' => ['\\', '\\']
  | c =>
    if isHidden c then '\\' :: 'u' :: '\x7b' :: (Nat.toDigits 16 c.toNat ++ ['\x7d']) else [c]

def quote (s : String) : String := String.ofList ('"' :: (s.toList.flatMap showChar ++ ['"']))

end Text
end LockManager
