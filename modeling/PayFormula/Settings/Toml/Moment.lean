import PayFormula.Calendar
import PayFormula.Settings.Numeral
import PayFormula.Settings.Value

/-!
# Moments in TOML

Dates, times and both together. A moment is written as a bare word or as a table
whose first field has a name of its own and holds the moment as a string; in the
table a day may end at 24 o'clock, and an offset may be any of up to a day.
-/
namespace PayFormula.Settings.Toml

/-- A day of the calendar, without braces. -/
def isDate (text : List Char) : Bool :=
  (Date.fields? ('\x7b' :: text ++ ['\x7d'])).any Date.exists?

/-- What follows a number of two digits that is at most `most`. -/
def afterPair? (most : Nat) : List Char → Option (List Char)
  | c :: d :: text => if (Calendar.pair? c d).any (· ≤ most) then some text else none
  | _ => none

def afterColon? : List Char → Option (List Char)
  | ':' :: text => some text
  | _ => none

/-- What follows the fraction of a second, if there is one. -/
def afterFraction? : List Char → Option (List Char)
  | '.' :: d :: text => if d.isDigit then some (text.dropWhile Char.isDigit) else none
  | '.' :: [] => none
  | text => some text

/-- What follows a time with its seconds. -/
def afterTime? (lastHour : Nat) (text : List Char) : Option (List Char) := do
  let text ← afterColon? (← afterPair? lastHour text)
  let text ← afterColon? (← afterPair? 59 text)
  afterFraction? (← afterPair? 60 text)

/-- Nothing, or the distance from universal time. -/
def isOffset (isAllowed : Nat → Nat → Bool) : List Char → Bool
  | [] | ['Z'] | ['z'] => true
  | [sign, h, h', ':', m, m'] =>
    (sign == '+' || sign == '-') &&
      (Calendar.pair? h h').any fun hours => (Calendar.pair? m m').any (isAllowed hours)
  | _ => false

/-- A date, a time, or both with `T` or a blank between them and perhaps an offset
behind them. -/
def isMomentWith (lastHour : Nat) (isAllowed : Nat → Nat → Bool) (text : List Char) : Bool :=
  if text[2]? = some ':' then afterTime? lastHour text == some []
  else isDate (text.take 10) && match text.drop 10 with
    | [] => true
    | c :: time =>
      c ∈ ['T', 't', ' '] && (afterTime? lastHour time).any (isOffset isAllowed)

/-- Whether a bare word is a moment. -/
def isMoment (text : List Char) : Bool :=
  isMomentWith 23 (fun hours minutes => hours ≤ 23 && minutes ≤ 59) text

def isTaggedMoment (text : List Char) : Bool :=
  isMomentWith 24 (fun hours minutes => 60 * hours + minutes ≤ 1440) text

/-- The name of the field that holds a moment. -/
def momentTag : String := "$__toml_private_datetime"

def ofMoment (text : List Char) : Value := .table [(momentTag, .text (String.ofList text))]

mutual

/-- Puts texts in the place of the tables that stand for moments. What else such a table
holds is not looked at; one without a moment is refused. -/
def settle? : Value → Option Value
  | .table [] => some (.table [])
  | .table ((name, value) :: fields) =>
    if name = momentTag then
      match value with
      | .text moment => if isTaggedMoment moment.toList then some (.text moment) else none
      | _ => none
    else do
      let value ← settle? value
      return .table ((name, value) :: (← settleFields fields))
  | .array items => (settleItems items).map .array
  | value => some value

def settleFields : List (String × Value) → Option (List (String × Value))
  | [] => some []
  | (name, value) :: fields => do
    let value ← settle? value
    return (name, value) :: (← settleFields fields)

def settleItems : List Value → Option (List Value)
  | [] => some []
  | item :: items => do
    let item ← settle? item
    return item :: (← settleItems items)

end

end PayFormula.Settings.Toml
