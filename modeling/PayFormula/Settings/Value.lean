import PayFormula.Decimal.Double

/-!
# Values of settings

What layers of settings are made of, and the keys by which one of them can
change a single value. Numbers count as flags: a number is false if it is zero.
-/
namespace PayFormula.Settings

inductive Value where
  | nothing
  | flag (value : Bool)
  | text (value : String)
  | array (items : List Value)
  | table (fields : List (String × Value))
  deriving Repr, Inhabited

/-- Whole numbers have 64 bits, one of them for the sign. -/
def wholeLimit : Nat := 0x8000000000000000

/-- The lowercase form of a name, by which it is known. The Kelvin sign is the one
letter beyond ASCII whose lowercase form is an ASCII letter. -/
def lowerName (name : String) : String :=
  String.ofList (name.toList.map fun c => if c = '\u212a' then 'k' else c.toLower)

/-- A field, a field of what a key names, or an item of it; negative numbers
count items from the end. -/
inductive Key where
  | field (name : String)
  | child (parent : Key) (name : String)
  | item (parent : Key) (number : Int)
  deriving DecidableEq, Repr, Inhabited

/-- Puts a value under a name, in the place of the one that is there. -/
def put {α : Type} (name : String) (value : α) : List (String × α) → List (String × α)
  | [] => [(name, value)]
  | (other, old) :: fields =>
    if other = name then (name, value) :: fields else (other, old) :: put name value fields

namespace Value

/-- The fields of a table; anything else gives way to an empty table. -/
def fields : Value → List (String × Value)
  | .table fields => fields
  | _ => []

def items : Value → List Value
  | .array items => items
  | _ => []

def get (name : String) (value : Value) : Value := (value.fields.lookup name).getD .nothing

mutual

/-- Sets a field. A table is merged into the one that is there, field by field,
each under the lowercase form of its name. -/
def merge (name : String) : Value → Value → Value
  | .table incoming, target =>
    let old := match target.fields.lookup name with
      | some old => old
      | none => .table []
    .table (put name (mergeFields incoming old) target.fields)
  | value, target => .table (put name value target.fields)

def mergeFields : List (String × Value) → Value → Value
  | [], target => target
  | (name, value) :: incoming, target => mergeFields incoming (merge (lowerName name) value target)

end

/-- The place of an item in a list; an item before the first one is the first. -/
def place (number : Int) (length : Nat) : Nat :=
  if number < 0 then length - number.natAbs else number.natAbs

/-- Changes an item, after filling the list up to it. -/
def alterItem (number : Int) (change : Value → Value) (items : List Value) : List Value :=
  let n := place number items.length
  let filled := items ++ List.replicate (n + 1 - items.length) .nothing
  filled.take n ++ change (filled.getD n .nothing) :: filled.drop (n + 1)

/-- Changes what a key names, after making it. -/
def alter (change : Value → Value) : Key → Value → Value
  | .field name, root => .table (put name (change (root.get name)) root.fields)
  | .child parent name, root =>
    alter (fun value => .table (put name (change (value.get name)) value.fields)) parent root
  | .item parent number, root =>
    alter (fun value => .array (alterItem number change value.items)) parent root

/-- Sets what a key names. -/
def set (root value : Value) : Key → Value
  | .field name => merge name value root
  | .child parent name => alter (merge name value) parent root
  | .item parent number =>
    alter (fun target => .array (alterItem number (fun _ => value) target.items)) parent root

end Value

namespace Key

def isNameChar (c : Char) : Bool := c.isAlphanum || c ∈ [' ', '_', '-']

def natural? (digits : List Char) : Option Nat :=
  if digits.isEmpty || !digits.all Char.isDigit then none else some (Decimal.ofDigits digits)

/-- A whole number with blanks around it. -/
def integer? (text : List Char) : Option Int :=
  let trimmed := (text.dropWhile (· ∈ [' ', '\t'])).reverse.dropWhile (· ∈ [' ', '\t'])
  match trimmed.reverse with
  | '-' :: digits => do
    let n ← natural? digits
    if n ≤ wholeLimit then some (-n) else none
  | digits => do
    let n ← natural? digits
    if n < wholeLimit then some n else none

/-- Reads the steps after a key: `.name` or `[number]`. Each takes a character,
so as many steps as characters are enough. -/
def steps? : Nat → Key → List Char → Option Key
  | _, key, [] => some key
  | 0, _, _ => none
  | n + 1, key, '.' :: text =>
    let name := text.takeWhile isNameChar
    if name.isEmpty then none
    else steps? n (.child key (lowerName (String.ofList name))) (text.dropWhile isNameChar)
  | n + 1, key, '[' :: text =>
    match text.dropWhile (· ≠ ']') with
    | [] => none
    | _ :: others => do steps? n (.item key (← integer? (text.takeWhile (· ≠ ']')))) others
  | _, _, _ => none

/-- Reads a key such as `logging.level`, whose names count as lowercase. -/
def ofString? (text : String) : Option Key :=
  let chars := text.toList
  let name := chars.takeWhile isNameChar
  if name.isEmpty then none
  else
    steps? chars.length (.field (lowerName (String.ofList name))) (chars.dropWhile isNameChar)

/-- Reads a key; a text that is none names the field of that name. -/
def ofName (text : String) : Key := (ofString? text).getD (.field (lowerName text))

end Key

end PayFormula.Settings
