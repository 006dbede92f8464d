set_option autoImplicit false

/-!
The numbers of JSON texts, and which of them are too large for a double. A double takes from a
number as many digits as fit a word and rounds them; then it multiplies by the rounded power of ten
that the exponent and the digits left out ask for, or divides.
-/

namespace LockManager

/-- The number `± units . places · 10 ^ exponent`. -/
structure Numeral where
  negative : Bool := false
  units : Nat
  places : List Nat := []
  exponent : Option Int := none
  deriving DecidableEq, Repr, Inhabited

namespace Numeral

/-- The number is written as a natural number. -/
def natural? (n : Numeral) : Option Nat :=
  if n.places.isEmpty && n.exponent.isNone && !n.negative then some n.units else none

/-- The leading digits that fit a word, and the number of the others. -/
def leading (n : Nat) : Nat × Nat :=
  if _h : n < UInt64.size then (n, 0)
  else
    let (m, dropped) := leading (n / 10)
    (m, dropped + 1)
  termination_by n
  decreasing_by
    have hs : 0 < UInt64.size := by decide
    omega

/-- Appends digits to `m` as long as it fits a word, and counts them. -/
def append (m : Nat) : List Nat → Nat × Nat
  | [] => (m, 0)
  | d :: rest =>
    if 10 * m + d < UInt64.size then
      let (m, taken) := append (10 * m + d) rest
      (m, taken + 1)
    else (m, 0)

/-- The digits that a double takes from the number, and the power of ten that goes with them. -/
def scaled (n : Numeral) : Nat × Int :=
  let (m, dropped) := leading n.units
  let (m, taken) := append m n.places
  (m, n.exponent.getD 0 + dropped - taken)

/-- The nearest number of 53 binary digits and zeros, the even one of two. -/
def nearest (n : Nat) : Nat :=
  if n < Nat.pow 2 53 then n
  else
    let unit := Nat.pow 2 (n.log2 - 52)
    let q := n / unit
    let r := n % unit
    (if 2 * r > unit || (2 * r = unit && q % 2 = 1) then q + 1 else q) * unit

/-- From here on the nearest double is infinite. -/
def doubleBound : Nat := Nat.pow 2 1024 - Nat.pow 2 970

/-- The largest power of ten that is a finite double. -/
def maxPower : Nat := 308

/-- The number is too large for a double. -/
def overflows (n : Numeral) : Bool :=
  let (m, power) := n.scaled
  m ≠ 0 && 0 ≤ power &&
    (power.toNat > maxPower || nearest m * nearest (Nat.pow 10 power.toNat) ≥ doubleBound)

end Numeral

end LockManager
