import PayFormula.LineIndex
import PayFormula.Token.Lexeme

/-!
# Reading tokens

The tokens of a text: its lexemes, one after another, with the spaces between
them left out. The tokens of a whole text end in front of an end token, which
can be read any number of times.
-/
namespace PayFormula

namespace Lexeme

/-- A string is known by what stands between its quotes. -/
def literal (x : Lexeme) : List Char :=
  match x.kind with
  | .string => (x.text.drop 1).dropLast
  | _ => x.text

/-- The lexeme as a token whose first byte is the one at `offset`. -/
def token (x : Lexeme) (index : LineIndex) (offset : Nat) : Token :=
  let stop := offset + byteLength x.text
  let span := index.span offset stop
  ⟨x.kind, String.ofList x.literal, span.first, span.last, offset, stop⟩

end Lexeme

namespace Token

/-- The tokens of a piece of text whose first byte is the one at `offset`. Each
step uses up a character, so as many steps as characters are enough. -/
def scan (index : LineIndex) : Nat → Nat → List Char → List Token
  | 0, _, _ => []
  | _, _, [] => []
  | steps + 1, offset, c :: rest =>
    if Lexeme.isSpace c then scan index steps (offset + c.utf8Size) rest
    else
      let x := Lexeme.read c rest
      x.token index offset :: scan index steps (offset + PayFormula.byteLength x.text) x.rest

def ofChars (text : List Char) : List Token :=
  scan (LineIndex.ofChars text) text.length 0 text

/-- The end token of a text. -/
def endOf (index : LineIndex) : Token := .eof index.endPosition index.length

end Token

/-- The tokens of a text, comments included and the end token not. -/
def tokenize (source : String) : List Token := Token.ofChars source.toList

end PayFormula
