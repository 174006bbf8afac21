import PayFormula.Settings.Toml.Scalar

/-!
# Strings of TOML

Strings between one or three double or single quotes. Between double quotes a
backslash starts an escape.
-/
namespace PayFormula.Settings.Toml

/-- What may stand for itself: everything but control characters, the tab apart. -/
def isPlain (c : Char) : Bool := c == '\t' || (0x20 ≤ c.toNat && c.toNat != 0x7f)

/-- The character of a code point given by digits of base sixteen. -/
def codePoint? (digits : List Char) : Option Char :=
  if digits.all (Text.isDigitOf 16) then
    let n := Text.valueOf 16 digits
    if h : n.isValidChar then some (Char.ofNatAux n h) else none
  else none

/-- Reads an escape after its backslash. -/
def escape? : List Char → Option (Char × List Char)
  | 'b' :: text => some ('\x08', text)
  | 't' :: text => some ('\t', text)
  | 'n' :: text => some ('\n', text)
  | 'f' :: text => some ('\x0c', text)
  | 'r' :: text => some ('\r', text)
  | '"' :: text => some ('"', text)
  | '\\' :: text => some ('\\', text)
  | 'u' :: a :: b :: c :: d :: text => (codePoint? [a, b, c, d]).map (·, text)
  | 'U' :: a :: b :: c :: d :: e :: f :: g :: h :: text =>
    (codePoint? [a, b, c, d, e, f, g, h]).map (·, text)
  | _ => none

/-- Reads up to a closing double quote. Each step takes a character. -/
def basic? : Nat → List Char → Option (List Char × List Char)
  | 0, _ => none
  | _, [] => none
  | _, '"' :: text => some ([], text)
  | n + 1, '\\' :: text => do
    let (c, text) ← escape? text
    let (body, text) ← basic? n text
    return (c :: body, text)
  | n + 1, c :: text =>
    if isPlain c then (basic? n text).map fun (body, text) => (c :: body, text) else none

/-- Reads up to a closing single quote. -/
def literal? : List Char → Option (List Char × List Char)
  | [] => none
  | '\'' :: text => some ([], text)
  | c :: text =>
    if isPlain c then (literal? text).map fun (body, text) => (c :: body, text) else none

/-- A newline at the start of a text. -/
def newline? : List Char → Option (List Char)
  | '\n' :: text => some text
  | '\r' :: '\n' :: text => some text
  | _ => none

def skipBlanks (text : List Char) : List Char := text.dropWhile (· ∈ [' ', '\t'])

/-- Up to two quotes may stand before the three that close a string. -/
def extraQuotes (quote : Char) (text : List Char) : List Char × List Char :=
  let extra := (text.take 2).takeWhile (· = quote)
  (extra, text.drop extra.length)

/-- Skips blanks and newlines. -/
def skipEmpty : List Char → List Char
  | ' ' :: text | '\t' :: text | '\n' :: text | '\r' :: '\n' :: text => skipEmpty text
  | text => text

/-- What is left after a backslash at the end of a line: blanks and newlines go. -/
def joinLine? (text : List Char) : Option (List Char) :=
  (newline? (skipBlanks text)).map skipEmpty

/-- Reads a string of several lines; `escapes` says whether a backslash starts
an escape. Each step takes a character. -/
def multiline? (quote : Char) (escapes : Bool) :
    Nat → List Char → Option (List Char × List Char)
  | 0, _ => none
  | _, [] => none
  | n + 1, c :: text =>
    if c = quote ∧ text.take 2 = [quote, quote] then some (extraQuotes quote (text.drop 2))
    else if c = '\\' ∧ escapes then
      match joinLine? text with
      | some text => multiline? quote escapes n text
      | none => do
        let (c, text) ← escape? text
        let (body, text) ← multiline? quote escapes n text
        return (c :: body, text)
    else match newline? (c :: text) with
      | some text => (multiline? quote escapes n text).map fun (body, text) => ('\n' :: body, text)
      | none =>
        if isPlain c then
          (multiline? quote escapes n text).map fun (body, text) => (c :: body, text)
        else none

/-- A newline right after the opening quotes is left out. -/
def openMultiline (text : List Char) : List Char := (newline? text).getD text

/-- Reads a string that starts with a quote. -/
def readString (text : List Char) : Option (List Char × List Char) :=
  match text with
  | '"' :: '"' :: '"' :: text => multiline? '"' true text.length (openMultiline text)
  | '"' :: text => basic? text.length text
  | '\'' :: '\'' :: '\'' :: text => multiline? '\'' false text.length (openMultiline text)
  | '\'' :: text => literal? text
  | _ => none

/-- Reads a string that stands on one line. -/
def readLineString (text : List Char) : Option (List Char × List Char) :=
  match text with
  | '"' :: text => basic? text.length text
  | '\'' :: text => literal? text
  | _ => none

end PayFormula.Settings.Toml
