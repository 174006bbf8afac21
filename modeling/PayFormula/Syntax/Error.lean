import PayFormula.Calendar
import PayFormula.Text.Character
import PayFormula.Token

/-!
# Syntax errors

An error is a cause and the token at which it was met. Its wording follows from
the two.
-/
namespace PayFormula

/-- The deepest nesting of expressions that is read. -/
def nestingLimit : Nat := 128

namespace SyntaxError

inductive Cause where
  | unexpectedToken (expected : List TokenKind)
  | reservedWord
  | blankName
  | missingSemicolon (name : String)
  | unclosed (opening : Mark)
  | noOperand
  | missingLeft
  | lexical (fault : LexicalFault)
  | invalidDate (error : CalendarError)
  | invalidTime (error : CalendarError)
  | invalidNumber
  | tooDeep
  deriving DecidableEq, Repr, Inhabited

/-- The category of an error, as reports give it. -/
def Cause.label : Cause → String
  | .unexpectedToken _ => "unexpected token"
  | .reservedWord => "reserved word"
  | .blankName => "blank identifier"
  | .missingSemicolon _ => "missing semicolon"
  | .unclosed _ => "unclosed delimiter"
  | .noOperand => "no prefix parser"
  | .missingLeft => "missing left expression"
  | .lexical _ => "lexical error"
  | .invalidDate _ => "invalid date"
  | .invalidTime _ => "invalid time"
  | .invalidNumber => "invalid number"
  | .tooDeep => "nesting too deep"

end SyntaxError

structure SyntaxError where
  cause : SyntaxError.Cause
  token : Token
  deriving DecidableEq, Repr, Inhabited

namespace SyntaxError

/-- A token as messages mention it: with its text where the kind leaves it open. -/
def mention (t : Token) : String :=
  match t.kind with
  | .ident | .builtin | .int | .float => t.kind.text ++ " " ++ Text.quote t.literal
  | kind => kind.text

/-- What closes a delimiter. -/
def closing : Mark → String
  | .lparen => ")"
  | .lbracket => "]"
  | _ => "$"

def message (e : SyntaxError) : String :=
  match e.cause with
  | .unexpectedToken expected =>
    "token type: have " ++ mention e.token ++ ", want " ++
      " or ".intercalate (expected.map TokenKind.text)
  | .reservedWord =>
    "token " ++ e.token.literal ++ " is a reserved word, and cannot be used as an identifier"
  | .blankName => "blank identifier cannot be used as a name"
  | .missingSemicolon name => "expected ; after var binding " ++ name
  | .unclosed opening =>
    "expected " ++ closing opening ++ " to close " ++ opening.text ++ ", found " ++ mention e.token
  | .noOperand => "no prefix parser mapped for token type " ++ mention e.token
  | .missingLeft => "operator " ++ e.token.kind.text ++ " has no left-hand expression"
  | .lexical fault => fault.message ++ ": " ++ Text.quote e.token.literal
  | .invalidDate error => error.message
  | .invalidTime error => error.message
  | .invalidNumber => "error parsing number literal: invalid float literal"
  | .tooDeep => "expression nested deeper than " ++ toString nestingLimit ++ " levels"

def span (e : SyntaxError) : Span := e.token.span

end SyntaxError

end PayFormula
