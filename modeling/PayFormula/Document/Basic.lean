import PayFormula.Document.Coloring
import PayFormula.Evaluate
import PayFormula.Parse.Program
import PayFormula.Syntax.Search

/-!
# Documents

A document is everything known about one version of a text. It is built once
and never changes; editors ask their questions of it. Whoever holds a document
may cancel it, and questions that search the tree are told whether that is so.
-/
namespace PayFormula

structure Document where
  source : String
  /-- All tokens, comments included and the end token not. -/
  tokens : List Token
  program : Program
  errors : List SyntaxError
  /-- The declared variables, in the order of the text. -/
  declared : List Variable
  index : LineIndex
  /-- The encoded coloring, five numbers for each piece. -/
  coloring : List Nat
  deriving Repr, Inhabited

namespace Document

def ofSource (source : String) : Document :=
  let parsed := parse source
  ⟨source, parsed.tokens, parsed.program, parsed.errors, (evaluate parsed.program).declared,
    LineIndex.ofString source, Coloring.encode (Coloring.collect parsed.tokens source)⟩

def tokenAt? (d : Document) (place : Position) : Option Token :=
  d.tokens.find? (·.span.contains place)

/-- What a name stands for at a position: the latest variable of that name
whose declared name starts there or before. -/
def variableAt? (d : Document) (name : String) (place : Position) : Option Variable :=
  d.declared.reverse.find? fun v => v.name == name && decide (v.nameSpan.first ≤ place)

/-- The variable that an identifier refers to. -/
def resolve? (d : Document) (i : Ident) : Option Variable := d.variableAt? i.name i.span.first

end Document

end PayFormula
