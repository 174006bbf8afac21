import PayFormula.Catalog
import PayFormula.Token

/-!
# Words

A word is a keyword, the name of a builtin function or an identifier, in this
order of precedence and whatever the case of its letters. Keywords and builtin
names are reserved: no variable can have them.
-/
namespace PayFormula.Word

/-- The keywords in alphabetical order; three of them spell operators. -/
def keywords : List (String × TokenKind) := [
  ("alias", .keyword .aliasWord),
  ("and", .mark .and),
  ("asc", .keyword .ascWord),
  ("by", .keyword .byWord),
  ("desc", .keyword .descWord),
  ("false", .keyword .falseWord),
  ("in", .keyword .inWord),
  ("not", .mark .bang),
  ("null", .keyword .nullWord),
  ("or", .mark .or),
  ("order", .keyword .orderWord),
  ("over", .keyword .overWord),
  ("set", .keyword .setWord),
  ("true", .keyword .trueWord),
  ("var", .keyword .varWord),
  ("where", .keyword .whereWord)]

def keyword? (word : String) : Option TokenKind := keywords.lookup (Text.lowercase word)

def classify (word : String) : TokenKind :=
  match keyword? word with
  | some kind => kind
  | none => if Catalog.isBuiltin word then .builtin else .ident

def isReserved (word : String) : Bool := (keyword? word).isSome || Catalog.isBuiltin word

end PayFormula.Word
