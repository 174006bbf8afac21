import PayFormula.Parse.Expression
import PayFormula.Token.Lexer

/-!
# Reading programs

A program is read to its end whatever its text. A statement that fails is
recorded as an error, and reading goes on after the next `;` that stands outside
brackets. Comments between statements are statements of their own.
-/
namespace PayFormula

structure Parsed where
  program : Program
  /-- The tokens of the text, comments included and the end token not. -/
  tokens : List Token
  errors : List SyntaxError
  deriving Repr, Inhabited

namespace Read

/-- An expression statement may end in `;`. -/
def statement : Read Statement := do
  let t ← current
  match t.kind with
  | .keyword .varWord => return .binding (← binding (expression nestingLimit))
  | .lineComment => return .lineComment ⟨t⟩
  | .blockComment => return .blockComment ⟨t⟩
  | _ => do
    let value ← expression nestingLimit .lowest
    if (← peek).kind = .mark .semicolon then advance
    return .expression value

/-- Statements up to the end. Each step moves the cursor, so as many steps as
tokens are enough. -/
def statements : Nat → Cursor → List Statement × Cursor
  | 0, c => ([], c)
  | steps + 1, c =>
    if c.rest.isEmpty then ([], c)
    else if c.current.kind = .mark .semicolon then statements steps c.step
    else match statement c with
      | (.ok first, c) =>
        let (others, c) := statements steps c.step
        (first :: others, c)
      | (.error e, c) => statements steps (c.record e).synchronize

end Read

/-- Reads the tokens of a text in front of its end token. -/
def parseTokens (tokens : List Token) (eof : Token) : Parsed :=
  let (statements, c) := Read.statements tokens.length ⟨tokens, eof, []⟩
  ⟨⟨statements, ⟨.origin, eof.first⟩⟩, tokens, c.errors⟩

def parse (source : String) : Parsed :=
  parseTokens (tokenize source) (.endOf (LineIndex.ofString source))

end PayFormula
