import PayFormula.Position

/-!
# Tokens

The vocabulary of the language and the tokens of a text. A token keeps the
piece of text it was read from, where that piece stands in lines and columns,
and the half-open range of its bytes.
-/
namespace PayFormula

/-- Why a piece of text is no token of the language. -/
inductive LexicalFault where
  | illegalCharacter
  | unterminatedString
  | unterminatedComment
  | malformedDateTime
  deriving DecidableEq, Repr, Inhabited

namespace LexicalFault

def message : LexicalFault → String
  | .illegalCharacter => "illegal character"
  | .unterminatedString => "unterminated string literal"
  | .unterminatedComment => "unterminated block comment"
  | .malformedDateTime => "malformed date or time literal"

def name : LexicalFault → String
  | .illegalCharacter => "IllegalByte"
  | .unterminatedString => "UnterminatedString"
  | .unterminatedComment => "UnterminatedComment"
  | .malformedDateTime => "MalformedDateTime"

end LexicalFault

/-- Operators and delimiters. `and`, `or` and `bang` may also be spelled as words. -/
inductive Mark where
  | eq
  | plus
  | minus
  | bang
  | neq
  | asterisk
  | slash
  | modulo
  | gt
  | lt
  | gte
  | lte
  | and
  | or
  | comma
  | semicolon
  | colon
  | lparen
  | rparen
  | lbrace
  | rbrace
  | lbracket
  | rbracket
  | period
  | dollar
  deriving DecidableEq, Repr, Inhabited

namespace Mark

def text : Mark → String
  | .eq => "="
  | .plus => "+"
  | .minus => "-"
  | .bang => "!"
  | .neq => "!="
  | .asterisk => "*"
  | .slash => "/"
  | .modulo => "%"
  | .gt => ">"
  | .lt => "<"
  | .gte => ">="
  | .lte => "<="
  | .and => "&&"
  | .or => "||"
  | .comma => ","
  | .semicolon => ";"
  | .colon => ":"
  | .lparen => "("
  | .rparen => ")"
  | .lbrace => "\x7b"
  | .rbrace => "\x7d"
  | .lbracket => "["
  | .rbracket => "]"
  | .period => "."
  | .dollar => "$"

def name : Mark → String
  | .eq => "Eq"
  | .plus => "Plus"
  | .minus => "Minus"
  | .bang => "Bang"
  | .neq => "Neq"
  | .asterisk => "Asterisk"
  | .slash => "Slash"
  | .modulo => "Modulo"
  | .gt => "Gt"
  | .lt => "Lt"
  | .gte => "Gte"
  | .lte => "Lte"
  | .and => "And"
  | .or => "Or"
  | .comma => "Comma"
  | .semicolon => "Semicolon"
  | .colon => "Colon"
  | .lparen => "LParen"
  | .rparen => "RParen"
  | .lbrace => "LBrace"
  | .rbrace => "RBrace"
  | .lbracket => "LBracket"
  | .rbracket => "RBracket"
  | .period => "Period"
  | .dollar => "Dollar"

end Mark

inductive Keyword where
  | varWord
  | overWord
  | whereWord
  | orderWord
  | byWord
  | ascWord
  | descWord
  | aliasWord
  | inWord
  | setWord
  | nullWord
  | trueWord
  | falseWord
  deriving DecidableEq, Repr, Inhabited

namespace Keyword

def text : Keyword → String
  | .varWord => "var"
  | .overWord => "over"
  | .whereWord => "where"
  | .orderWord => "order"
  | .byWord => "by"
  | .ascWord => "asc"
  | .descWord => "desc"
  | .aliasWord => "alias"
  | .inWord => "in"
  | .setWord => "set"
  | .nullWord => "null"
  | .trueWord => "true"
  | .falseWord => "false"

def name : Keyword → String
  | .varWord => "Var"
  | .overWord => "Over"
  | .whereWord => "Where"
  | .orderWord => "Order"
  | .byWord => "By"
  | .ascWord => "Asc"
  | .descWord => "Desc"
  | .aliasWord => "Alias"
  | .inWord => "In"
  | .setWord => "Set"
  | .nullWord => "Null"
  | .trueWord => "True"
  | .falseWord => "False"

end Keyword

inductive TokenKind where
  | illegal (fault : LexicalFault)
  | eof
  | ident
  | builtin
  | int
  | float
  | string
  | date
  | time
  | lineComment
  | blockComment
  | mark (mark : Mark)
  | keyword (word : Keyword)
  deriving DecidableEq, Repr, Inhabited

namespace TokenKind

def isKeyword : TokenKind → Bool
  | .keyword _ => true
  | _ => false

def isComment : TokenKind → Bool
  | .lineComment => true
  | .blockComment => true
  | _ => false

/-- How messages call the kind: the spelling if it has only one, else its class. -/
def text : TokenKind → String
  | .illegal _ => "ILLEGAL"
  | .eof => "EOF"
  | .ident => "IDENT"
  | .builtin => "BUILTIN"
  | .int => "INT"
  | .float => "FLOAT"
  | .string => "STRING"
  | .date => "DATE"
  | .time => "TIME"
  | .lineComment => "COMMENT_LINE"
  | .blockComment => "COMMENT_BLOCK"
  | .mark m => m.text
  | .keyword w => w.text

/-- How reports name the kind; all illegal pieces share one name. -/
def name : TokenKind → String
  | .illegal _ => "Illegal"
  | .eof => "Eof"
  | .ident => "Ident"
  | .builtin => "Builtin"
  | .int => "Int"
  | .float => "Float"
  | .string => "String"
  | .date => "Date"
  | .time => "Time"
  | .lineComment => "CommentLine"
  | .blockComment => "CommentBlock"
  | .mark m => m.name
  | .keyword w => w.name

end TokenKind

structure Token where
  kind : TokenKind
  /-- The text of the token; that of a string without its quotes. -/
  literal : String
  first : Position
  last : Position
  start : Nat
  stop : Nat
  deriving DecidableEq, Repr, Inhabited

namespace Token

/-- The end of a text as a token: no bytes, at the place after the last one. -/
def eof (place : Position) (offset : Nat) : Token := ⟨.eof, "", place, place, offset, offset⟩

def span (t : Token) : Span := ⟨t.first, t.last⟩

def byteLength (t : Token) : Nat := t.stop - t.start

def isEmpty (t : Token) : Bool := t.stop ≤ t.start

def is (t : Token) (m : Mark) : Bool := t.kind == .mark m

def isWord (t : Token) (w : Keyword) : Bool := t.kind == .keyword w

end Token

end PayFormula
