set_option autoImplicit false

/-!
Moments of world time by the Gregorian calendar, which is followed backwards and forwards beyond its
use, and their written form.
-/

namespace LockManager

structure Date where
  year : Int
  month : Nat
  day : Nat
  deriving DecidableEq, Repr

namespace Date

def isLeapYear (year : Int) : Bool := year % 4 = 0 && (year % 100 ≠ 0 || year % 400 = 0)

/-- The number of days, none if there is no such month. -/
def daysIn (year : Int) (month : Nat) : Nat :=
  if month ∈ [1, 3, 5, 7, 8, 10, 12] then 31
  else if month ∈ [4, 6, 9, 11] then 30
  else if month = 2 then if isLeapYear year then 29 else 28
  else 0

def firstYear : Int := -262143

def lastYear : Int := 262142

/-- The date is in the calendar, which goes from the first year to the last. -/
def isValid (d : Date) : Bool :=
  firstYear ≤ d.year && d.year ≤ lastYear && 1 ≤ d.day && d.day ≤ daysIn d.year d.month

def next (d : Date) : Date :=
  if d.day < daysIn d.year d.month then { d with day := d.day + 1 }
  else if d.month < 12 then { d with month := d.month + 1, day := 1 }
  else { year := d.year + 1, month := 1, day := 1 }

def previous (d : Date) : Date :=
  if 1 < d.day then { d with day := d.day - 1 }
  else if 1 < d.month then { d with month := d.month - 1, day := daysIn d.year (d.month - 1) }
  else { year := d.year - 1, month := 12, day := 31 }

/-- The date some days later, none of one, or earlier by one. -/
def shift (d : Date) (days : Int) : Date :=
  if days < 0 then d.previous else if days = 0 then d else d.next

end Date

/-- A moment. Any minute may have a sixty-first second. -/
structure Timestamp where
  date : Date
  /-- Of the day. -/
  minute : Nat
  second : Nat
  nanosecond : Nat := 0
  deriving DecidableEq, Repr

namespace Timestamp

def minutesInDay : Nat := 1440

/-- The moment that a clock shows which is ahead of world time by some minutes, less than a day. -/
def ofLocal? (t : Timestamp) (ahead : Int) : Option Timestamp :=
  let minute := (t.minute : Int) - ahead
  let date := t.date.shift (minute.fdiv minutesInDay)
  if t.date.isValid && t.minute < minutesInDay && t.second ≤ 60 && ahead.natAbs < minutesInDay
      && date.isValid then
    some { t with date, minute := (minute.fmod minutesInDay).toNat }
  else none

/-! ### Writing -/

/-- The digits of `n` after zeros that make them at least `width`. -/
def padded (width n : Nat) : List Char :=
  let digits := Nat.toDigits 10 n
  List.replicate (width - digits.length) '0' ++ digits

/-- Years that do not have four digits are signed. -/
def writeYear (year : Int) : List Char :=
  if 0 ≤ year && year ≤ 9999 then padded 4 year.toNat
  else (if year < 0 then '-' else '+') :: padded 4 year.natAbs

/-- Thousandths, millionths or thousand millionths, whichever are enough. -/
def writeFraction (nanosecond : Nat) : List Char :=
  if nanosecond = 0 then []
  else if nanosecond % 1000000 = 0 then '.' :: padded 3 (nanosecond / 1000000)
  else if nanosecond % 1000 = 0 then '.' :: padded 6 (nanosecond / 1000)
  else '.' :: padded 9 nanosecond

def render (t : Timestamp) : String :=
  String.ofList <|
    writeYear t.date.year ++ '-' :: padded 2 t.date.month ++ '-' :: padded 2 t.date.day ++
      'T' :: padded 2 (t.minute / 60) ++ ':' :: padded 2 (t.minute % 60) ++
      ':' :: padded 2 t.second ++ writeFraction t.nanosecond ++ ['Z']

end Timestamp

end LockManager
