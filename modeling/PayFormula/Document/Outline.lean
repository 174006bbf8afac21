import PayFormula.Document.Basic

/-!
# Outlines

The symbols and the problems of a document: one symbol for each declared
variable and one problem for each error, both in the order of the text.
-/
namespace PayFormula

structure DocumentSymbol where
  name : String
  /-- The type of the value. -/
  detail : String
  /-- The whole binding. -/
  range : Span
  /-- The declared name. -/
  selection : Span
  deriving DecidableEq, Repr, Inhabited

structure Diagnostic where
  span : Span
  message : String
  /-- The category of the error. -/
  code : String
  deriving DecidableEq, Repr, Inhabited

def VariableOf.symbol (v : Variable) : DocumentSymbol :=
  ⟨v.name, v.type.name, v.binding.span, v.nameSpan⟩

def SyntaxError.diagnostic (e : SyntaxError) : Diagnostic := ⟨e.span, e.message, e.cause.label⟩

namespace Document

def symbols (d : Document) : List DocumentSymbol := d.declared.map VariableOf.symbol

def diagnostics (d : Document) : List Diagnostic := d.errors.map SyntaxError.diagnostic

end Document

end PayFormula
