import LockManager.Timestamp

set_option autoImplicit false

/-!
Reading a moment from text. Blanks may stand before every number and mark but the point of a
fraction, a `T` or a blank divides date and time, numbers need no leading zeros, and a signed year
may have any number of digits. The clock's distance from world time comes last and cannot be left
out.
-/

namespace LockManager
namespace Timestamp

/-- A white space of any script. -/
def isBlank (c : Char) : Bool :=
  (0x09 ≤ c.toNat && c.toNat ≤ 0x0D) || (0x2000 ≤ c.toNat && c.toNat ≤ 0x200A)
    || c.toNat ∈ [0x20, 0x85, 0xA0, 0x1680, 0x2028, 0x2029, 0x202F, 0x205F, 0x3000]

def skipBlanks (cs : List Char) : List Char := cs.dropWhile isBlank

def digitsValue (ds : List Char) : Nat :=
  ds.foldl (fun n c => 10 * n + (c.toNat - '0'.toNat)) 0

/-- The leading digits, one or more and at most `width`. -/
def readDigits (width : Nat) (cs : List Char) : Option (List Char × List Char) :=
  let ds := (cs.take width).takeWhile Char.isDigit
  if ds.isEmpty then none else some (ds, cs.drop ds.length)

def readNumber (width : Nat) (cs : List Char) : Option (Nat × List Char) :=
  (readDigits width (skipBlanks cs)).map fun (ds, rest) => (digitsValue ds, rest)

def readYear (cs : List Char) : Option (Int × List Char) := do
  match skipBlanks cs with
  | '-' :: rest =>
    let (ds, rest) ← readDigits rest.length rest
    return (-(digitsValue ds : Int), rest)
  | '+' :: rest =>
    let (ds, rest) ← readDigits rest.length rest
    return (digitsValue ds, rest)
  | cs =>
    let (ds, rest) ← readDigits 4 cs
    return (digitsValue ds, rest)

/-- What must stand next, after blanks. -/
def expect (c : Char) (cs : List Char) : Option (List Char) :=
  match skipBlanks cs with
  | d :: rest => if d = c then some rest else none
  | [] => none

def readDate (cs : List Char) : Option (Date × List Char) := do
  let (year, cs) ← readYear cs
  let (month, cs) ← readNumber 2 (← expect '-' cs)
  let (day, cs) ← readNumber 2 (← expect '-' cs)
  return ({ year, month, day }, cs)

/-- Thousand millionths after a point, if there is one. Digits beyond the ninth are passed over. -/
def readFraction : List Char → Option (Nat × List Char)
  | '.' :: rest => do
    let (ds, rest) ← readDigits 9 rest
    return (digitsValue (ds ++ List.replicate (9 - ds.length) '0'), rest.dropWhile Char.isDigit)
  | cs => some (0, cs)

/-- Two digits, the first at most `top`. -/
def readPair (top : Nat) : List Char → Option (Nat × List Char)
  | a :: b :: rest =>
    if a.isDigit && b.isDigit && digitsValue [a] ≤ top then some (digitsValue [a, b], rest) else none
  | _ => none

/-- Hours and minutes, in minutes, with or without colons and blanks between them. -/
def readSpan (cs : List Char) : Option (Nat × List Char) := do
  let (hours, cs) ← readPair 9 cs
  let (minutes, cs) ← readPair 5 (cs.dropWhile fun c => c = ':' || isBlank c)
  return (60 * hours + minutes, cs)

/-- By how many minutes the clock is ahead of world time. -/
def readAhead (cs : List Char) : Option (Int × List Char) :=
  if (cs.take 3).map Char.toUpper = ['U', 'T', 'C'] then some (0, cs.drop 3)
  else
    match cs with
    | 'Z' :: rest | 'z' :: rest => some (0, rest)
    | '+' :: rest => (readSpan rest).map fun (n, rest) => ((n : Int), rest)
    | '-' :: rest | '\u2212' :: rest => (readSpan rest).map fun (n, rest) => (-(n : Int), rest)
    | _ => none

def isDivider (c : Char) : Bool := c = 'T' || c = 't' || c = ' '

def read? (cs : List Char) : Option Timestamp := do
  let (date, cs) ← readDate cs
  let cs ← if cs.head?.any isDivider then some cs.tail else none
  let (hour, cs) ← readNumber 2 cs
  let (minute, cs) ← readNumber 2 (← expect ':' cs)
  let (second, cs) ← readNumber 2 (← expect ':' cs)
  let (nanosecond, cs) ← readFraction cs
  let (ahead, cs) ← readAhead (skipBlanks cs)
  if (skipBlanks cs).isEmpty && minute < 60 then
    ofLocal? { date, minute := 60 * hour + minute, second, nanosecond } ahead
  else none

def ofText? (s : String) : Option Timestamp := read? s.toList

end Timestamp
end LockManager
