import PayFormula.Settings.Toml.Moment
import PayFormula.Text.Character

/-!
# Bare values of TOML

Flags, whole numbers, floating-point numbers and moments, as version 1.0 of TOML
writes them.
-/
namespace PayFormula.Settings.Toml

/-- Digits of some kind, with single underscores between them. -/
def isRun (digit : Char → Bool) : List Char → Bool
  | [] => false
  | [c] => digit c
  | c :: '_' :: text => digit c && isRun digit text
  | c :: text => digit c && isRun digit text

def withoutUnderscores (text : List Char) : List Char := text.filter (· ≠ '_')

def valueOf (base : Nat) (text : List Char) : Nat :=
  Text.valueOf base (withoutUnderscores text)

def based? (base : Nat) (digits : List Char) : Option Value :=
  if isRun (Text.isDigitOf base) digits && valueOf base digits < wholeLimit then
    some (.flag (valueOf base digits != 0))
  else none

/-- Digits without a leading zero. -/
def isWhole (text : List Char) : Bool :=
  isRun Char.isDigit text && (text.length == 1 || text.head? != some '0')

def whole? (text : List Char) : Option Value :=
  let body := Numeral.unsigned text
  let n := valueOf 10 body
  if isWhole body && (n < wholeLimit || n == wholeLimit && Numeral.isNegative text) then
    some (.flag (n != 0))
  else none

/-- A number past the largest double is refused, unless it is negative. -/
def float? (text : List Char) : Option Value :=
  let body := Numeral.unsigned text
  let (mantissa, power) := Numeral.splitPower body
  let (whole, part) := Numeral.splitPoint mantissa
  if isWhole whole && part.all (isRun Char.isDigit) &&
      power.all (fun power => isRun Char.isDigit (Numeral.unsigned power)) &&
      (part.isSome || power.isSome) then
    let value := (Numeral.decimal (withoutUnderscores whole)
      (withoutUnderscores (part.getD [])) (withoutUnderscores (power.getD ['0']))).toDouble
    if value = .infinite ∧ ¬ Numeral.isNegative text then none else some (.flag !value.isZero)
  else none

def special? (text : List Char) : Option Value :=
  let body := Numeral.unsigned text
  if body = ['i', 'n', 'f'] ∨ body = ['n', 'a', 'n'] then some (.flag true) else none

def number? (text : List Char) : Option Value :=
  match text with
  | '0' :: 'x' :: digits => based? 16 digits
  | '0' :: 'o' :: digits => based? 8 digits
  | '0' :: 'b' :: digits => based? 2 digits
  | _ => (whole? text).or ((float? text).or (special? text))

/-- The value of a bare word. -/
def scalar? (text : List Char) : Option Value :=
  if text = "true".toList then some (.flag true)
  else if text = "false".toList then some (.flag false)
  else if isMoment text then some (ofMoment text)
  else number? text

def isScalarChar (c : Char) : Bool := c.isAlphanum || c ∈ ['+', '-', '_', '.', ':']

/-- Reads a bare word; after a date, a blank and a time belong to it. -/
def readScalar (text : List Char) : Option (Value × List Char) :=
  let word := text.takeWhile isScalarChar
  let rest := text.dropWhile isScalarChar
  match rest with
  | ' ' :: d :: more =>
    if isDate word && d.isDigit then
      let time := (d :: more).takeWhile isScalarChar
      (scalar? (word ++ ' ' :: time)).map fun value => (value, (d :: more).drop time.length)
    else (scalar? word).map fun value => (value, rest)
  | _ => (scalar? word).map fun value => (value, rest)

end PayFormula.Settings.Toml
