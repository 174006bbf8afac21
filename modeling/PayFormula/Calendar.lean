/-!
# Dates and clock times

A date is written `{yyyy-MM-dd}` and a clock time `{hh:mm}`, in braces. A literal
is read only if it has exactly that shape and names a day of the Gregorian
calendar from 1900 to 3000, or a minute of the day.
-/
namespace PayFormula

structure Date where
  year : Nat
  month : Nat
  day : Nat
  deriving DecidableEq, Repr, Inhabited

structure Clock where
  hour : Nat
  minute : Nat
  deriving DecidableEq, Repr, Inhabited

inductive CalendarError where
  | dateFormat
  | dateOutOfBounds
  | noSuchDay
  | timeFormat
  | timeOutOfRange
  deriving DecidableEq, Repr, Inhabited

def CalendarError.message : CalendarError → String
  | .dateFormat => "invalid date format, must match pattern \x7byyyy-MM-dd\x7d (including braces)"
  | .dateOutOfBounds =>
    "date out of bounds, must be between \x7b1900-01-01\x7d and \x7b3000-12-31\x7d"
  | .noSuchDay => "invalid calendar date"
  | .timeFormat => "invalid time format, must match pattern \x7bhh:mm\x7d (including braces)"
  | .timeOutOfRange => "time out of range, must be between \x7b00:00\x7d and \x7b23:59\x7d"

namespace Calendar

def isLeapYear (year : Nat) : Bool :=
  year % 4 == 0 && year % 100 != 0 || year % 400 == 0

def daysInMonth (year month : Nat) : Nat :=
  if month = 2 then if isLeapYear year then 29 else 28
  else if month ∈ [4, 6, 9, 11] then 30
  else if 1 ≤ month ∧ month ≤ 12 then 31
  else 0

/-- The value of a decimal digit. -/
def digit? (c : Char) : Option Nat :=
  if c.isDigit then some (c.toNat - '0'.toNat) else none

/-- The value of two decimal digits. -/
def pair? (c d : Char) : Option Nat := do
  return 10 * (← digit? c) + (← digit? d)

def digitChar (n : Nat) : Char := Char.ofNat ('0'.toNat + n % 10)

def writePair (n : Nat) : List Char := [digitChar (n / 10), digitChar n]

end Calendar

open Calendar

namespace Date

/-- A day that the calendar has. -/
def exists? (d : Date) : Bool :=
  1 ≤ d.month && d.month ≤ 12 && 1 ≤ d.day && d.day ≤ daysInMonth d.year d.month

/-- From the first day of 1900 to the last day of 3000. -/
def inBounds (d : Date) : Bool := 1900 ≤ d.year && d.year ≤ 3000

/-- Reads the shape alone. -/
def fields? : List Char → Option Date
  | ['\x7b', y, y', y'', y''', '-', m, m', '-', d, d', '\x7d'] => do
    let century ← pair? y y'
    let rest ← pair? y'' y'''
    return ⟨100 * century + rest, ← pair? m m', ← pair? d d'⟩
  | _ => none

def ofChars (text : List Char) : Except CalendarError Date :=
  match fields? text with
  | none => .error .dateFormat
  | some d =>
    if !d.exists? then .error .noSuchDay
    else if !d.inBounds then .error .dateOutOfBounds
    else .ok d

def chars (d : Date) : List Char :=
  '\x7b' :: writePair (d.year / 100) ++ writePair (d.year % 100) ++
    '-' :: writePair d.month ++ '-' :: writePair d.day ++ ['\x7d']

def render (d : Date) : String := String.ofList d.chars

end Date

namespace Clock

def inRange (c : Clock) : Bool := c.hour ≤ 23 && c.minute ≤ 59

/-- Reads the shape alone. -/
def fields? : List Char → Option Clock
  | ['\x7b', h, h', ':', m, m', '\x7d'] => do
    return ⟨← pair? h h', ← pair? m m'⟩
  | _ => none

def ofChars (text : List Char) : Except CalendarError Clock :=
  match fields? text with
  | none => .error .timeFormat
  | some c => if c.inRange then .ok c else .error .timeOutOfRange

def chars (c : Clock) : List Char :=
  '\x7b' :: writePair c.hour ++ ':' :: writePair c.minute ++ ['\x7d']

def render (c : Clock) : String := String.ofList c.chars

end Clock

end PayFormula
