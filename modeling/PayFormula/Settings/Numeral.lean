import PayFormula.Decimal.Double

/-!
# Numerals of settings

Numbers as layers of settings write them. Only whether a number is zero counts.
-/
namespace PayFormula.Settings.Numeral

/-- A sign, if there is one, and what follows it. -/
def unsigned : List Char → List Char
  | '+' :: text => text
  | '-' :: text => text
  | text => text

def isNegative : List Char → Bool
  | '-' :: _ => true
  | _ => false

/-- Digits, or nothing. -/
def areDigits (text : List Char) : Bool := text.all Char.isDigit

/-- Splits a numeral in front of its power of ten. -/
def splitPower (text : List Char) : List Char × Option (List Char) :=
  match text.dropWhile fun c => c ≠ 'e' ∧ c ≠ 'E' with
  | [] => (text, none)
  | _ :: power => (text.takeWhile fun c => c ≠ 'e' ∧ c ≠ 'E', some power)

/-- Splits a numeral at its point. -/
def splitPoint (text : List Char) : List Char × Option (List Char) :=
  match text.dropWhile (· ≠ '.') with
  | [] => (text, none)
  | _ :: part => (text.takeWhile (· ≠ '.'), some part)

def powerOf (power : List Char) : Int :=
  let n : Int := Decimal.ofDigits (unsigned power)
  if isNegative power then -n else n

/-- The decimal of a whole part, a fraction and a power of ten. -/
def decimal (whole part power : List Char) : Decimal :=
  ⟨Decimal.ofDigits (whole ++ part), powerOf power - part.length⟩

def isPower (power : List Char) : Bool :=
  let digits := unsigned power
  !digits.isEmpty && areDigits digits

/-- Digits with a point before, among or after them, and perhaps a power of ten. -/
def plain? (text : List Char) : Option Decimal :=
  let (mantissa, power) := splitPower text
  let (whole, part) := splitPoint mantissa
  let part := part.getD []
  if areDigits whole && areDigits part && !(whole.isEmpty && part.isEmpty) &&
      power.all isPower then
    some (decimal whole part (power.getD ['0']))
  else none

/-- Whether a text is a number, and if so whether that is other than zero. -/
def flag? (text : List Char) : Option Bool :=
  let body := unsigned text
  let word := String.ofList (body.map Char.toLower)
  if word = "inf" ∨ word = "infinity" ∨ word = "nan" then some true
  else (plain? body).map fun d => !d.toDouble.isZero

end PayFormula.Settings.Numeral
