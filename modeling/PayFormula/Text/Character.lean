import PayFormula.Text.Printable
import PayFormula.Text.Slice

/-!
# Characters

What single characters count as: letters in two cases, blanks, digits, the escapes under
which messages quote them, and the spellings that tables give of them.
-/
namespace PayFormula.Text

/-! ## Letter case -/

/-- Lowers the ASCII letters and leaves every other character alone. Words are compared without
regard to the case of these. -/
def lowercase (text : String) : String := String.ofList (text.toList.map Char.toLower)

@[simp] theorem toList_lowercase (text : String) :
    (lowercase text).toList = text.toList.map Char.toLower := by simp [lowercase]

/-! ## Blanks -/

/-- The characters of the Unicode property `White_Space`. -/
def isBlank (c : Char) : Bool :=
  let n := c.toNat
  (0x9 ≤ n && n ≤ 0xd) || n == 0x20 || n == 0x85 || n == 0xa0 || n == 0x1680 ||
    (0x2000 ≤ n && n ≤ 0x200a) || n == 0x2028 || n == 0x2029 || n == 0x202f ||
    n == 0x205f || n == 0x3000

def trimLeft (text : List Char) : List Char := text.dropWhile isBlank

/-- A text with its blank ends cut off. -/
def trim (text : List Char) : List Char := (trimLeft (trimLeft text).reverse).reverse

/-! ## Digits

Digits of the bases up to sixteen and the numbers that they write. -/

def digitValue? (c : Char) : Option Nat :=
  if c.isDigit then some (c.toNat - '0'.toNat)
  else if 'a' ≤ c ∧ c ≤ 'f' then some (c.toNat - 'a'.toNat + 10)
  else if 'A' ≤ c ∧ c ≤ 'F' then some (c.toNat - 'A'.toNat + 10)
  else none

def isDigitOf (base : Nat) (c : Char) : Bool := (digitValue? c).any (· < base)

/-- The number that digits write, the first of them counting most. -/
def valueOf (base : Nat) (digits : List Char) : Nat :=
  digits.foldl (fun n c => base * n + (digitValue? c).getD 0) 0

/-! ## Quotation

Text as messages and reports quote it: between double quotes, on one line, with
everything that would not show on a screen written as an escape. -/

/-- The digits of a number in base sixteen, lowercase, without leading zeros. -/
def hex (n : Nat) : List Char := Nat.toDigits 16 n

def escape (c : Char) : List Char :=
  if c = '"' then ['\\', '"']
  else if c = '\\' then ['\\', '\\']
  else if c = '\n' then ['\\', 'n']
  else if c = '\r' then ['\\', 'r']
  else if c = '\t' then ['\\', 't']
  else if c = '\x00' then ['\\', '0']
  else if c.toNat < 0x20 ∨ c.toNat = 0x7f ∨ (0x80 ≤ c.toNat ∧ isHidden c) then
    ['\\', 'u', '\x7b'] ++ hex c.toNat ++ ['\x7d']
  else [c]

def quoteChars (text : List Char) : List Char := '"' :: text.flatMap escape ++ ['"']

def quote (text : String) : String := String.ofList (quoteChars text.toList)

/-! ## Spellings

Tables that say by which other characters a character is spelled. A row of such a
table gives a character and, with blanks between them, the spellings of this and of
the characters that follow it. -/

namespace Spelling

/-- The first character of each row and the spellings in it. -/
def read (rows : List (Nat × String)) : List (Nat × List (List Char)) :=
  rows.map fun (first, text) => (first, pieces (· = ' ') text.toList)

def find? (table : List (Nat × List (List Char))) (c : Char) : Option (List Char) :=
  table.findSome? fun (first, spellings) =>
    if first ≤ c.toNat then spellings[c.toNat - first]? else none

end Spelling

end PayFormula.Text
