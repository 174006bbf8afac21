/-!
# JSON values

Values with the fields of an object in the order given, and their text over
several lines with an indentation of two blanks.
-/
namespace PayFormula

inductive Json where
  | null
  | bool (value : Bool)
  | int (value : Int)
  | string (value : String)
  | array (items : List Json)
  | object (fields : List (String × Json))
  deriving Repr, Inhabited

namespace Json

def ofNat (n : Nat) : Json := .int n

/-- An object without the fields that have no value. -/
def ofFields (fields : List (String × Option Json)) : Json :=
  .object (fields.filterMap fun (name, value) => value.map (name, ·))

/-- Two lowercase digits of base sixteen. -/
def hexPair (n : Nat) : List Char := [Nat.digitChar (n / 16 % 16), Nat.digitChar (n % 16)]

def escape (c : Char) : List Char :=
  match c with
  | '"' => ['\\', '"']
  | '\\' => ['\\', '\\']
  | '\n' => ['\\', 'n']
  | '\r' => ['\\', 'r']
  | '\t' => ['\\', 't']
  | '\x08' => ['\\', 'b']
  | '\x0c' => ['\\', 'f']
  | c => if c.toNat < 0x20 then ['\\', 'u', '0', '0'] ++ hexPair c.toNat else [c]

def quote (text : String) : String :=
  "\"" ++ String.ofList (text.toList.flatMap escape) ++ "\""

/-- Lines between brackets, one level further in than `indent`. -/
def enclose (opening closing indent : String) (lines : List String) : String :=
  if lines.isEmpty then opening ++ closing
  else
    opening ++ "\n" ++ ",\n".intercalate (lines.map (indent ++ "  " ++ ·)) ++
      "\n" ++ indent ++ closing

mutual

/-- The text of a value; `indent` is what the lines after the first start with. -/
def prettyAt (indent : String) : Json → String
  | .null => "null"
  | .bool value => if value then "true" else "false"
  | .int value => toString value
  | .string value => quote value
  | .array items => enclose "[" "]" indent (prettyItems (indent ++ "  ") items)
  | .object fields => enclose "\x7b" "\x7d" indent (prettyFields (indent ++ "  ") fields)

def prettyItems (indent : String) : List Json → List String
  | [] => []
  | item :: items => prettyAt indent item :: prettyItems indent items

def prettyFields (indent : String) : List (String × Json) → List String
  | [] => []
  | (name, value) :: fields =>
    (quote name ++ ": " ++ prettyAt indent value) :: prettyFields indent fields

end

def pretty (value : Json) : String := prettyAt "" value

end Json

end PayFormula
