import PayFormula.Text.Slice
import PayFormula.Token

/-!
# Coloring

Which pieces of a text an editor colors, and the form in which it is told. The
color hangs on the kind of a token alone. A token of several lines is colored
line by line; the encoded form is five numbers for each piece, with its place
given relative to the piece before.
-/
namespace PayFormula

inductive ColorKind where
  | typeName
  | className
  | parameter
  | variableName
  | property
  | enumMember
  | function
  | method
  | macroName
  | keyword
  | comment
  | string
  | number
  | operator
  deriving DecidableEq, Repr, Inhabited

namespace ColorKind

def name : ColorKind → String
  | .typeName => "type"
  | .className => "class"
  | .parameter => "parameter"
  | .variableName => "variable"
  | .property => "property"
  | .enumMember => "enumMember"
  | .function => "function"
  | .method => "method"
  | .macroName => "macro"
  | .keyword => "keyword"
  | .comment => "comment"
  | .string => "string"
  | .number => "number"
  | .operator => "operator"

/-- The kinds in the order in which they are numbered. -/
def legend : List ColorKind := [
  .typeName, .className, .parameter, .variableName, .property, .enumMember, .function,
  .method, .macroName, .keyword, .comment, .string, .number, .operator]

def index (kind : ColorKind) : Nat := legend.idxOf kind

def ofToken? : TokenKind → Option ColorKind
  | .lineComment | .blockComment => some .comment
  | .int | .float => some .number
  | .string => some .string
  | .builtin => some .function
  | .keyword _ => some .keyword
  | _ => none

end ColorKind

/-- A colored piece of one line; columns and lengths count bytes. -/
structure ColorRun where
  kind : ColorKind
  line : Nat
  column : Nat
  length : Nat
  deriving DecidableEq, Repr, Inhabited

namespace Coloring

/-- The runs of the lines of a token; `column` is where the first line starts. -/
def ofLines (kind : ColorKind) (line column : Nat) : List (List Char) → List ColorRun
  | [] => []
  | text :: others =>
    if text.isEmpty then ofLines kind (line + 1) 0 others
    else ⟨kind, line, column, byteLength text⟩ :: ofLines kind (line + 1) 0 others

def ofToken (source : List Char) (t : Token) : List ColorRun :=
  match ColorKind.ofToken? t.kind, Text.slice? source t.start t.stop with
  | some kind, some text => ofLines kind t.first.line t.first.column (Text.lines text)
  | _, _ => []

/-- The colored pieces of tokens of a text. -/
def collect (tokens : List Token) (source : String) : List ColorRun :=
  tokens.flatMap (ofToken source.toList)

/-- Subtraction of 32-bit words. -/
def wordSub (a b : Nat) : Nat := (a + 0x100000000 - b) % 0x100000000

/-- Encodes runs after a piece at the given place. -/
def encodeFrom (line column : Nat) : List ColorRun → List Nat
  | [] => []
  | run :: runs =>
    let lines := wordSub run.line line
    let columns := if lines = 0 then wordSub run.column column else run.column
    lines :: columns :: run.length :: run.kind.index :: 0 :: encodeFrom run.line run.column runs

/-- Five numbers for each run: lines since the run before, columns since it or
since the start of the line, length, number of the kind, and no modifiers. -/
def encode (runs : List ColorRun) : List Nat := encodeFrom 0 0 runs

end Coloring

end PayFormula
