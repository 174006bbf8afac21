/-!
# Double-precision numbers

Non-negative numbers of the IEEE 754 format with 53-bit significands, held
exactly as integers. `Decimal.toDouble` rounds a decimal to the nearest of them,
a tie going to the even significand and a number past the largest to `infinite`.
-/
namespace PayFormula

/-- `mantissa * 2 ^ exponent`, or larger than every finite number. -/
inductive Double where
  | finite (mantissa : Nat) (exponent : Int)
  | infinite
  deriving DecidableEq, Repr, Inhabited

/-- `coefficient * 10 ^ exponent`. -/
structure Decimal where
  coefficient : Nat
  exponent : Int
  deriving DecidableEq, Repr, Inhabited

namespace Double

def zero : Double := .finite 0 (-1074)

/-- What the first of the 53 bits of a full significand is worth. -/
def leadingBit : Nat := 0x10000000000000

/-- The integer nearest to `a / b`, a tie going to the even one. -/
def nearestEven (a b : Nat) : Nat :=
  let down := a / b
  let rest := 2 * (a % b)
  if rest > b ∨ rest = b ∧ down % 2 = 1 then down + 1 else down

/-- The exponent of the power of two that `a / b` reaches but does not double. -/
def binaryOrder (a b : Nat) : Int :=
  let guess := (a.log2 : Int) - b.log2
  let reached := if guess < 0 then b ≤ a <<< guess.natAbs else b <<< guess.natAbs ≤ a
  if reached then guess else guess - 1

/-- Puts a rounded significand back into range. -/
def normalize (mantissa : Nat) (exponent : Int) : Double :=
  let (mantissa, exponent) :=
    if mantissa = 2 * leadingBit then (leadingBit, exponent + 1) else (mantissa, exponent)
  if exponent > 971 then .infinite else .finite mantissa exponent

/-- The double nearest to `a / b`. -/
def ofRatio (a b : Nat) : Double :=
  if a = 0 then zero
  else
    let exponent := max (binaryOrder a b - 52) (-1074)
    if exponent < 0 then normalize (nearestEven (a <<< exponent.natAbs) b) exponent
    else normalize (nearestEven a (b <<< exponent.natAbs)) exponent

def isZero : Double → Bool
  | .finite mantissa _ => mantissa == 0
  | .infinite => false

/-- The 64-bit interchange form. -/
def bits : Double → Nat
  | .infinite => 0x7ff * leadingBit
  | .finite mantissa exponent =>
    if mantissa < leadingBit then mantissa
    else (exponent + 1075).toNat * leadingBit + (mantissa - leadingBit)

end Double

namespace Decimal

def powerOfTen (n : Nat) : Nat := Nat.pow 10 n

/-- Numbers of more than 310 places before the point, or of more than 330 zeros
after it, lie outside the range of doubles and are settled without computing a
power of ten. -/
def toDouble (d : Decimal) : Double :=
  let places := (Nat.toDigits 10 d.coefficient).length + d.exponent
  if d.coefficient = 0 ∨ places < -330 then .zero
  else if places > 310 then .infinite
  else if d.exponent < 0 then .ofRatio d.coefficient (powerOfTen d.exponent.natAbs)
  else .ofRatio (d.coefficient * powerOfTen d.exponent.natAbs) 1

def digitValue (c : Char) : Nat := c.toNat - '0'.toNat

def ofDigits (digits : List Char) : Nat := digits.foldl (fun n c => 10 * n + digitValue c) 0

/-- Reads digits, or digits, a point and digits. -/
def ofChars? (text : List Char) : Option Decimal :=
  let whole := text.takeWhile Char.isDigit
  match text.dropWhile Char.isDigit with
  | [] => if whole.isEmpty then none else some ⟨ofDigits whole, 0⟩
  | '.' :: part =>
    if whole.isEmpty || part.isEmpty || !part.all Char.isDigit then none
    else some ⟨ofDigits (whole ++ part), -part.length⟩
  | _ => none

end Decimal

end PayFormula
