import PayFormula.Calendar
import PayFormula.Token.Word

/-!
# Lexemes

The longest piece that a text starts with. Every character starts one: a piece
that is no token of the language is a lexeme of an illegal kind, so that reading
never fails.
-/
namespace PayFormula

/-- What was read, and what is left after it. -/
structure Lexeme where
  kind : TokenKind
  text : List Char
  rest : List Char
  deriving DecidableEq, Repr, Inhabited

namespace Lexeme

/-- The characters that separate tokens. -/
def isSpace (c : Char) : Bool := c ∈ [' ', '\t', '\r', '\n', '\x0b', '\x0c']

def isWordStart (c : Char) : Bool := c.isAlpha || c == '_'

def isWordPart (c : Char) : Bool := c.isAlphanum || c == '_'

/-- The characters that may stand between the braces of a date or a time. -/
def isBraced (c : Char) : Bool := c.isDigit || c ∈ [':', '-', ' ', '\t']

def ofWord (c : Char) (rest : List Char) : Lexeme :=
  let text := c :: rest.takeWhile isWordPart
  ⟨Word.classify (String.ofList text), text, rest.dropWhile isWordPart⟩

/-- Digits; a point belongs to the number only if a digit follows it. -/
def ofNumber (c : Char) (rest : List Char) : Lexeme :=
  let whole := c :: rest.takeWhile Char.isDigit
  match rest.dropWhile Char.isDigit with
  | '.' :: d :: part =>
    if d.isDigit then
      ⟨.float, whole ++ '.' :: d :: part.takeWhile Char.isDigit, part.dropWhile Char.isDigit⟩
    else ⟨.int, whole, '.' :: d :: part⟩
  | part => ⟨.int, whole, part⟩

/-- A string ends at the next quote. -/
def ofString (rest : List Char) : Lexeme :=
  let body := rest.takeWhile (· ≠ '"')
  match rest.dropWhile (· ≠ '"') with
  | quote :: after => ⟨.string, '"' :: body ++ [quote], after⟩
  | [] => ⟨.illegal .unterminatedString, '"' :: body, []⟩

/-- Splits a text after its first `*/`. -/
def splitComment? : List Char → Option (List Char × List Char)
  | '*' :: '/' :: rest => some (['*', '/'], rest)
  | c :: rest => (splitComment? rest).map fun (body, after) => (c :: body, after)
  | [] => none

def ofBlockComment (rest : List Char) : Lexeme :=
  match splitComment? rest with
  | some (body, after) => ⟨.blockComment, '/' :: '*' :: body, after⟩
  | none => ⟨.illegal .unterminatedComment, '/' :: '*' :: rest, []⟩

def ofLineComment (rest : List Char) : Lexeme :=
  ⟨.lineComment, '/' :: '/' :: rest.takeWhile (· ≠ '\n'), rest.dropWhile (· ≠ '\n')⟩

/-- The kind of a complete literal in braces. -/
def bracedKind (text : List Char) : TokenKind :=
  if (Date.fields? text).isSome then .date
  else if (Clock.fields? text).isSome then .time
  else .illegal .malformedDateTime

/-- A brace that a digit, colon, dash or blank follows opens a date or a time;
if no brace closes it, the run of those characters is illegal with the brace. -/
def ofBrace (rest : List Char) : Lexeme :=
  let body := rest.takeWhile isBraced
  match rest.dropWhile isBraced with
  | '\x7d' :: after =>
    let text := '\x7b' :: body ++ ['\x7d']
    ⟨bracedKind text, text, after⟩
  | after =>
    if body.isEmpty then ⟨.mark .lbrace, ['\x7b'], after⟩
    else ⟨.illegal .illegalCharacter, '\x7b' :: body, after⟩

/-- Marks of two characters. -/
def pair? : Char → Char → Option Mark
  | '!', '=' => some .neq
  | '>', '=' => some .gte
  | '<', '=' => some .lte
  | '&', '&' => some .and
  | '|', '|' => some .or
  | _, _ => none

/-- Marks of one character. -/
def single? : Char → Option Mark
  | '=' => some .eq
  | '+' => some .plus
  | '-' => some .minus
  | '!' => some .bang
  | '*' => some .asterisk
  | '/' => some .slash
  | '%' => some .modulo
  | '>' => some .gt
  | '<' => some .lt
  | ',' => some .comma
  | ';' => some .semicolon
  | ':' => some .colon
  | '(' => some .lparen
  | ')' => some .rparen
  | '\x7d' => some .rbrace
  | '[' => some .lbracket
  | ']' => some .rbracket
  | '.' => some .period
  | '$' => some .dollar
  | _ => none

def ofSingle (c : Char) (rest : List Char) : Lexeme :=
  match single? c with
  | some m => ⟨.mark m, [c], rest⟩
  | none => ⟨.illegal .illegalCharacter, [c], rest⟩

def ofMark (c : Char) : List Char → Lexeme
  | [] => ofSingle c []
  | d :: rest =>
    match pair? c d with
    | some m => ⟨.mark m, [c, d], rest⟩
    | none => ofSingle c (d :: rest)

/-- The lexeme that starts with `c`, which is no space. -/
def read (c : Char) (rest : List Char) : Lexeme :=
  if isWordStart c then ofWord c rest
  else if c.isDigit then ofNumber c rest
  else match c, rest with
    | '"', rest => ofString rest
    | '/', '/' :: rest => ofLineComment rest
    | '/', '*' :: rest => ofBlockComment rest
    | '\x7b', rest => ofBrace rest
    | c, rest => ofMark c rest

end Lexeme

end PayFormula
