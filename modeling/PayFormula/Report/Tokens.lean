import PayFormula.Json
import PayFormula.Text.Character
import PayFormula.Token.Lexer

/-!
# Token reports

The tokens of a text, one to a line or as JSON.
-/
namespace PayFormula

/-- `KIND "literal" @ span`, on one line whatever the token holds. -/
def Token.describe (t : Token) : String :=
  t.kind.text ++ " " ++ Text.quote t.literal ++ " @ " ++ t.span.render

def Position.json (p : Position) : Json :=
  .object [("line", .ofNat p.line), ("column", .ofNat p.column)]

def TokenKind.json : TokenKind → Json
  | .illegal fault => .object [("Illegal", .string fault.name)]
  | kind => .string kind.name

def Token.json (t : Token) : Json :=
  .object [
    ("kind", t.kind.json),
    ("literal", .string t.literal),
    ("start", t.first.json),
    ("end", t.last.json),
    ("span", .object [("start", .ofNat t.start), ("end", .ofNat t.stop)])]

inductive TokenFormat where
  | json
  | simple
  deriving DecidableEq, Repr, Inhabited

namespace TokenFormat

/-- The formats under the names by which they are asked for. -/
def named : List (String × TokenFormat) := [("json", .json), ("simple", .simple)]

def ofName? (name : String) : Option TokenFormat := named.lookup name

def unknownMessage (name : String) : String :=
  "Unknown format '" ++ name ++ "'. Available formats: " ++ ", ".intercalate (named.map (·.1))

end TokenFormat

namespace Report

def tokens (source : String) : TokenFormat → String
  | .json => (Json.array ((tokenize source).map Token.json)).pretty
  | .simple => String.join ((tokenize source).map fun t => t.describe ++ "\n")

end Report

end PayFormula
