import PayFormula.Text.Character

/-!
# Escapes in URIs

A character that a part of a URI cannot hold is written as the bytes of its UTF-8
form, each as a percent sign and two digits of base sixteen. The parts differ in
what they cannot hold.
-/
namespace PayFormula.Uri

/-- What no part holds: control characters and everything beyond ASCII. -/
def isForeign (c : Char) : Bool := c.toNat < 0x20 || 0x7e < c.toNat

def isForeignToFragment (c : Char) : Bool := isForeign c || c ∈ [' ', '"', '<', '>', '\x60']

def isForeignToPath (c : Char) : Bool :=
  isForeignToFragment c || c ∈ ['#', '?', '\x7b', '\x7d']

def isForeignToUser (c : Char) : Bool :=
  isForeignToPath c || c ∈ ['/', ':', ';', '=', '@', '[', '\\', ']', '^', '|']

/-- The schemes of the web keep single quotes out of a query too. -/
def isForeignToQuery (isSpecial : Bool) (c : Char) : Bool :=
  isForeign c || c ∈ [' ', '"', '#', '<', '>'] || isSpecial && c == '\''

def escapeByte (b : UInt8) : List Char :=
  ['%', (Nat.digitChar (b.toNat / 16)).toUpper, (Nat.digitChar (b.toNat % 16)).toUpper]

/-- Writes the foreign characters of a text as escapes. -/
def escape (foreign : Char → Bool) (text : List Char) : List Char :=
  text.flatMap fun c => if foreign c then (String.utf8EncodeChar c).flatMap escapeByte else [c]

/-- The bytes of a text whose escapes stand for single bytes. A percent sign
without two digits stands for itself. -/
def unescape : List Char → List UInt8
  | '%' :: a :: b :: text =>
    if Text.isDigitOf 16 a && Text.isDigitOf 16 b then
      UInt8.ofNat (Text.valueOf 16 [a, b]) :: unescape text
    else String.utf8EncodeChar '%' ++ unescape (a :: b :: text)
  | c :: text => String.utf8EncodeChar c ++ unescape text
  | [] => []

end PayFormula.Uri
