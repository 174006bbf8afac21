import PayFormula.Document.Basic

/-!
# Hover

What an editor shows for the token under the pointer: the documentation of a
builtin function, or a variable with its type.
-/
namespace PayFormula

structure Hover where
  /-- Markdown text. -/
  value : String
  /-- The token. -/
  span : Span
  deriving DecidableEq, Repr, Inhabited

def Document.hover? (d : Document) (place : Position) : Option Hover := do
  let t ← d.tokenAt? place
  match t.kind with
  | .builtin => return ⟨(← Catalog.lookup? t.literal).docstring, t.span⟩
  | .ident =>
    let v ← d.variableAt? t.literal t.first
    return ⟨"```wflang\n" ++ v.render ++ "\n```", t.span⟩
  | _ => none

end PayFormula
