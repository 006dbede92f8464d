import LockManager.Hex
import LockManager.Json

set_option autoImplicit false

/-!
Reading JSON text, by the letter of the grammar: nothing may follow the value, numbers have no
leading zeros, strings hold no raw control characters. A string with a byte that belongs to no
character, or with a lone half of a surrogate pair, keeps to the grammar but is no text. Each reader
gives what it has read and the rest.
-/

namespace LockManager
namespace Json

/-! ### Symbols -/

/-- A character, or a byte that belongs to no character. -/
abbrev Symbol := Option Char

/-- The character that the bytes begin with, and the number of its bytes. -/
def leadingChar? (bytes : Bytes) : Option (Char × Nat) :=
  [1, 2, 3, 4].findSome? fun n =>
    match (Bytes.toText? (bytes.take n)).map String.toList with
    | some [c] => some (c, n)
    | _ => none

def scanSymbols (bytes : Bytes) : List Symbol :=
  match bytes with
  | [] => []
  | b :: rest =>
    match leadingChar? (b :: rest) with
    | some (c, n) => some c :: scanSymbols (rest.drop (n - 1))
    | none => none :: scanSymbols rest
  termination_by bytes.length
  decreasing_by
  · simp only [List.length_drop, List.length_cons]
    omega
  · simp

def symbols (bytes : Bytes) : List Symbol :=
  match bytes.toText? with
  | some s => s.toList.map some
  | none => scanSymbols bytes

def isSpace (c : Char) : Bool := c = ' ' || c = '\t' || c = '\n' || c = '\r'

def skipSpace (cs : List Symbol) : List Symbol := cs.dropWhile (·.any isSpace)

/-! ### Strings -/

/-- What a string is made of: characters, stray bytes, and escaped units of sixteen bits. -/
inductive Piece where
  | char (c : Char)
  | stray
  | unit (n : Nat)
  deriving DecidableEq, Repr

def hexValue? (c : Char) : Option Nat :=
  if '0' ≤ c ∧ c ≤ '9' then some (c.toNat - '0'.toNat)
  else if 'a' ≤ c ∧ c ≤ 'f' then some (c.toNat - 'a'.toNat + 10)
  else if 'A' ≤ c ∧ c ≤ 'F' then some (c.toNat - 'A'.toNat + 10)
  else none

def unit? (a b c d : Char) : Option Nat := do
  return 4096 * (← hexValue? a) + 256 * (← hexValue? b) + 16 * (← hexValue? c) + (← hexValue? d)

/-- The character that a backslash makes of the one after it. -/
def unescape? : Char → Option Char
  | '"' => some '"'
  | '\\' => some '\\'
  | '/' => some '/'
  | 'b' => some '\x08'
  | 'f' => some '\x0c'
  | 'n' => some '\n'
  | 'r' => some '\r'
  | 't' => some '\t'
  | _ => none

/-- The pieces up to the closing quote. -/
def readPieces : List Symbol → Option (List Piece × List Symbol)
  | [] => none
  | some '"' :: rest => some ([], rest)
  | some '\\' :: some 'u' :: some a :: some b :: some c :: some d :: rest => do
    let n ← unit? a b c d
    let (ps, rest) ← readPieces rest
    return (.unit n :: ps, rest)
  | some '\\' :: some c :: rest => do
    let c ← unescape? c
    let (ps, rest) ← readPieces rest
    return (.char c :: ps, rest)
  | some c :: rest =>
    if c.toNat < 0x20 || c = '\\' then none
    else do
      let (ps, rest) ← readPieces rest
      return (.char c :: ps, rest)
  | none :: rest => do
    let (ps, rest) ← readPieces rest
    return (.stray :: ps, rest)

def isHighHalf (n : Nat) : Bool := 0xD800 ≤ n && n < 0xDC00

def isLowHalf (n : Nat) : Bool := 0xDC00 ≤ n && n < 0xE000

/-- Joins the halves of surrogate pairs. There is no text if one stands alone, or a byte does. -/
def joinPieces : List Piece → Option (List Char)
  | [] => some []
  | .char c :: rest => (joinPieces rest).map (c :: ·)
  | .stray :: _ => none
  | .unit high :: .unit low :: rest =>
    if isHighHalf high then
      if isLowHalf low then
        (joinPieces rest).map (Char.ofNat (0x10000 + (high - 0xD800) * 0x400 + (low - 0xDC00)) :: ·)
      else none
    else if isLowHalf high then none
    else (joinPieces (.unit low :: rest)).map (Char.ofNat high :: ·)
  | .unit n :: rest =>
    if isHighHalf n || isLowHalf n then none else (joinPieces rest).map (Char.ofNat n :: ·)

/-- A string after its opening quote, with its text if it has one. -/
def readString (cs : List Symbol) : Option (Option String × List Symbol) := do
  let (ps, rest) ← readPieces cs
  return ((joinPieces ps).map String.ofList, rest)

/-! ### Numbers -/

def digit? : Symbol → Option Nat
  | some c => if c.isDigit then some (c.toNat - '0'.toNat) else none
  | none => none

def takeDigits : List Symbol → List Nat × List Symbol
  | [] => ([], [])
  | s :: rest =>
    match digit? s with
    | some d =>
      let (ds, rest) := takeDigits rest
      (d :: ds, rest)
    | none => ([], s :: rest)

def digitsValue (ds : List Nat) : Nat := ds.foldl (fun n d => 10 * n + d) 0

/-- One or more digits. -/
def readDigits (cs : List Symbol) : Option (List Nat × List Symbol) :=
  let (ds, rest) := takeDigits cs
  if ds.isEmpty then none else some (ds, rest)

/-- The number before point and exponent, which has no leading zero. -/
def readUnits (cs : List Symbol) : Option (Nat × List Symbol) := do
  let (ds, rest) ← readDigits cs
  if ds.head? = some 0 && ds.length > 1 then none else some (digitsValue ds, rest)

/-- The digits after a point, if there is one. -/
def readPlaces : List Symbol → Option (List Nat × List Symbol)
  | some '.' :: rest => readDigits rest
  | cs => some ([], cs)

def readSigned : List Symbol → Option (Int × List Symbol)
  | some '-' :: rest => (readDigits rest).map fun (ds, rest) => (-(digitsValue ds : Int), rest)
  | some '+' :: rest => (readDigits rest).map fun (ds, rest) => ((digitsValue ds : Int), rest)
  | cs => (readDigits cs).map fun (ds, rest) => ((digitsValue ds : Int), rest)

/-- The number after an exponent mark, if there is one. -/
def readExponent : List Symbol → Option (Option Int × List Symbol)
  | some 'e' :: rest | some 'E' :: rest => (readSigned rest).map fun (n, rest) => (some n, rest)
  | cs => some (none, cs)

def readUnsigned (negative : Bool) (cs : List Symbol) : Option (Numeral × List Symbol) := do
  let (units, cs) ← readUnits cs
  let (places, cs) ← readPlaces cs
  let (exponent, cs) ← readExponent cs
  return ({ negative, units, places, exponent }, cs)

def readNumeral : List Symbol → Option (Numeral × List Symbol)
  | some '-' :: rest => readUnsigned true rest
  | cs => readUnsigned false cs

/-! ### Values -/

/-- What must stand next, after blanks. -/
def expect (c : Char) (cs : List Symbol) : Option (List Symbol) :=
  match skipSpace cs with
  | d :: rest => if d = some c then some rest else none
  | [] => none

def ofString : Option String → Json
  | some s => .text s
  | none => .broken

def ofFields (fields : List (Option String × Json)) : Json :=
  match fields.mapM fun (k, v) => k.map (·, v) with
  | some fields => .record fields
  | none => .broken

mutual

/-- Every call but the first of `readItems` and `readFields` comes after at least one symbol, so
the length of the text is fuel enough. -/
def readValue : Nat → List Symbol → Option (Json × List Symbol)
  | 0, _ => none
  | fuel + 1, cs =>
    match skipSpace cs with
    | some 'n' :: some 'u' :: some 'l' :: some 'l' :: rest => some (.null, rest)
    | some 't' :: some 'r' :: some 'u' :: some 'e' :: rest => some (.bool true, rest)
    | some 'f' :: some 'a' :: some 'l' :: some 's' :: some 'e' :: rest => some (.bool false, rest)
    | some '"' :: rest => (readString rest).map fun (s, rest) => (ofString s, rest)
    | some '[' :: rest =>
      match expect ']' rest with
      | some rest => some (.list [], rest)
      | none => do
        let (v, rest) ← readValue fuel rest
        let (vs, rest) ← readItems fuel rest
        return (.list (v :: vs), rest)
    | some '\x7b' :: rest =>
      match expect '\x7d' rest with
      | some rest => some (.record [], rest)
      | none => do
        let (f, rest) ← readField fuel rest
        let (fs, rest) ← readFields fuel rest
        return (ofFields (f :: fs), rest)
    | cs => (readNumeral cs).map fun (n, rest) => (.number n, rest)

/-- The items after the first. -/
def readItems : Nat → List Symbol → Option (List Json × List Symbol)
  | 0, _ => none
  | fuel + 1, cs =>
    match skipSpace cs with
    | some ']' :: rest => some ([], rest)
    | some ',' :: rest => do
      let (v, rest) ← readValue fuel rest
      let (vs, rest) ← readItems fuel rest
      return (v :: vs, rest)
    | _ => none

/-- A field, with its name if that is a text. -/
def readField : Nat → List Symbol → Option ((Option String × Json) × List Symbol)
  | 0, _ => none
  | fuel + 1, cs => do
    let rest ← expect '"' cs
    let (k, rest) ← readString rest
    let rest ← expect ':' rest
    let (v, rest) ← readValue fuel rest
    return ((k, v), rest)

/-- The fields after the first. -/
def readFields : Nat → List Symbol → Option (List (Option String × Json) × List Symbol)
  | 0, _ => none
  | fuel + 1, cs =>
    match skipSpace cs with
    | some '\x7d' :: rest => some ([], rest)
    | some ',' :: rest => do
      let (f, rest) ← readField fuel rest
      let (fs, rest) ← readFields fuel rest
      return (f :: fs, rest)
    | _ => none

end

/-- The value that the symbols spell, if they spell one. -/
def read? (cs : List Symbol) : Option Json := do
  let (v, rest) ← readValue (cs.length + 1) cs
  if (skipSpace rest).isEmpty then some v else none

def ofBytes? (bytes : Bytes) : Option Json := read? (symbols bytes)

def ofText? (s : String) : Option Json := read? (s.toList.map some)

theorem ofBytes?_ofText (s : String) : ofBytes? (.ofText s) = ofText? s := by
  simp [ofBytes?, ofText?, symbols]

end Json
end LockManager
