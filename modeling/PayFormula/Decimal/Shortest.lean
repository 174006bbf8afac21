import PayFormula.Decimal.Double

/-!
# Shortest decimal text

The fewest digits that read back as the same double, and of those the ones
nearest to it. Candidates are the two neighbours of the double on the grid of
decimals with one, two, … seventeen digits; the first grid with a hit wins.
-/
namespace PayFormula

namespace Double

/-- The decimals that round to a number, measured in units of `1 / scale`: all
between `low` and `high`, both ends included when `closed`. -/
structure Rounding where
  low : Nat
  value : Nat
  high : Nat
  scale : Nat
  closed : Bool
  deriving DecidableEq, Repr

/-- Below a power of two doubles lie twice as dense as above it, so the gap to
the next smaller one is halved there. -/
def rounding (mantissa : Nat) (exponent : Int) : Rounding :=
  let below := if mantissa = leadingBit ∧ exponent > -1074 then 1 else 2
  let unit := 1 <<< (exponent - 2).toNat
  ⟨(4 * mantissa - below) * unit, 4 * mantissa * unit, (4 * mantissa + 2) * unit,
    1 <<< (2 - exponent).toNat, mantissa % 2 == 0⟩

namespace Rounding

def admits (r : Rounding) (x : Nat) : Bool :=
  if r.closed then r.low ≤ x && x ≤ r.high else r.low < x && x < r.high

/-- Multiplies all lengths of the interval by `10 ^ n`. -/
def shift (r : Rounding) (n : Int) : Rounding :=
  let up := Decimal.powerOfTen n.toNat
  ⟨r.low * up, r.value * up, r.high * up, r.scale * Decimal.powerOfTen (-n).toNat, r.closed⟩

/-- The integer in the interval nearest to its value, the greater one on a tie. -/
def integer? (r : Rounding) : Option Nat :=
  let down := r.value / r.scale
  let isDown := r.admits (down * r.scale)
  let isUp := r.admits ((down + 1) * r.scale)
  if isUp && (!isDown || r.scale ≤ 2 * (r.value % r.scale)) then some (down + 1)
  else if isDown then some down
  else none

/-- The number of decimal places of the integer part, not positive for a
number below one. -/
def decimalOrder (r : Rounding) : Int :=
  if r.scale ≤ r.value then (Nat.toDigits 10 (r.value / r.scale)).length
  else 1 - (Nat.toDigits 10 ((r.scale - 1) / r.value)).length

def search (r : Rounding) (order : Int) : Nat → Nat → Decimal
  | digits, 0 =>
    let grid := r.shift (digits - order)
    ⟨grid.value / grid.scale, order - digits⟩
  | digits, more + 1 =>
    match (r.shift (digits - order)).integer? with
    | some coefficient => ⟨coefficient, order - digits⟩
    | none => r.search order (digits + 1) more

end Rounding

/-- The shortest decimal of a positive finite number. -/
def shortest (mantissa : Nat) (exponent : Int) : Decimal :=
  let r := rounding mantissa exponent
  r.search r.decimalOrder 1 17

end Double

namespace Decimal

/-- The significant digits and the number of places before the point. -/
def digits (d : Decimal) : List Char × Int :=
  let all := Nat.toDigits 10 d.coefficient
  ((all.reverse.dropWhile (· = '0')).reverse, all.length + d.exponent)

def zeros (n : Nat) : List Char := List.replicate n '0'

/-- Positional text; a whole number has no point. -/
def positional (d : Decimal) : List Char :=
  let (digits, order) := d.digits
  if order ≤ 0 then ['0', '.'] ++ zeros order.natAbs ++ digits
  else if digits.length ≤ order.natAbs then digits ++ zeros (order.natAbs - digits.length)
  else digits.take order.natAbs ++ '.' :: digits.drop order.natAbs

/-- One digit before the point, then the power of ten. -/
def scientific (d : Decimal) : List Char :=
  let (digits, order) := d.digits
  let exponent := (toString (order - 1)).toList
  match digits with
  | [] => []
  | lead :: [] => lead :: 'e' :: exponent
  | lead :: rest => lead :: '.' :: rest ++ 'e' :: exponent

end Decimal

namespace Double

/-- The number as values are shown: positional, whatever its size. -/
def render : Double → String
  | .infinite => "inf"
  | .finite 0 _ => "0"
  | .finite mantissa exponent => String.ofList (shortest mantissa exponent).positional

/-- The number as trees show it: always with a point or an exponent, the
exponent from `1e16` on and below `1e-4`. -/
def inspect : Double → String
  | .infinite => "inf"
  | .finite 0 _ => "0.0"
  | .finite mantissa exponent =>
    let d := shortest mantissa exponent
    let (digits, order) := d.digits
    if 16 < order ∨ order ≤ -4 then String.ofList d.scientific
    else if digits.length ≤ order then String.ofList (d.positional ++ ['.', '0'])
    else String.ofList d.positional

end Double

end PayFormula
