import PayFormula.Syntax.Tree

/-!
# Printing trees

The source text of a tree, with operators and keywords in one spelling and one
blank between them. Parentheses are nodes, so nothing is added for grouping. An
expression statement before another statement ends in `;`, so that an operator
that starts the next one is not read as if it went on.
-/
namespace PayFormula

def Ident.render (i : Ident) : String := i.name

def StringLiteral.render (s : StringLiteral) : String := "\"" ++ s.value ++ "\""

def ListLiteral.render (l : ListLiteral) : String :=
  "[" ++ ", ".intercalate (l.strings.map StringLiteral.render) ++ "]"

def NameClause.renderAlias (c : NameClause) : String := "alias " ++ c.name.render

def NameClause.renderSet (c : NameClause) : String := "set " ++ c.name.render

def Collection.render : Collection → String
  | .list l => l.render
  | .set s => s.renderSet

def Direction.text : Direction → String
  | .ascending => "asc"
  | .descending => "desc"

/-- A token that was passed over, as it stood in the text. -/
def Token.render (t : Token) : String :=
  if t.kind = .string then "\"" ++ t.literal ++ "\"" else t.literal

mutual

def Expr.render : Expr → String
  | .ident i => i.render
  | .number t _ => t.literal
  | .string s => s.render
  | .boolean _ value => if value then "true" else "false"
  | .date _ d => d.render
  | .time _ c => c.render
  | .blank _ => ""
  | .unary _ op operand => op.text ++ operand.render
  | .binary _ left op right => left.render ++ " " ++ op.text ++ " " ++ right.render
  | .paren _ ⟨bindings, value⟩ _ => "(" ++ renderBindings bindings ++ value.render ++ ")"
  | .block ⟨bindings, value⟩ => renderBindings bindings ++ value.render
  | .macroCall _ name _ args _ _ =>
    "$" ++ name.render ++ "(" ++ ", ".intercalate (renderArgs args) ++ ")$"
  | .call t _ args _ => t.literal ++ "(" ++ ", ".intercalate (renderArgs args) ++ ")"
  | .overClause _ context aliased =>
    "over " ++ context.render ++
      match aliased with
      | some clause => " " ++ clause.renderAlias
      | none => ""
  | .filter _ condition => "where " ++ condition.render
  | .orderBy _ _ key direction =>
    "order by " ++ key.render ++
      match direction with
      | some d => " " ++ d.direction.text
      | none => ""
  | .label clause => clause.renderAlias
  | .set clause => clause.renderSet
  | .list l => l.render
  | .member _ left collection => left.render ++ " in " ++ collection.render
  | .failed _ tokens => " ".intercalate (tokens.map Token.render)

/-- The texts of arguments, in order. -/
def renderArgs : List Expr → List String
  | [] => []
  | arg :: args => arg.render :: renderArgs args

/-- Bindings in front of a value, each with a blank after it. -/
def renderBindings : List (BindingOf Expr) → String
  | [] => ""
  | ⟨_, name, value, _⟩ :: bindings =>
    "var " ++ name.render ++ " = " ++ value.render ++ "; " ++ renderBindings bindings

end

def BindingOf.render (b : Binding) : String :=
  "var " ++ b.name.render ++ " = " ++ b.value.render ++ ";"

def BlockOf.render (b : Block) : String := renderBindings b.bindings ++ b.value.render

def Statement.render : Statement → String
  | .expression e => e.render
  | .binding b => b.render
  | .lineComment c => c.token.literal
  | .blockComment c => c.token.literal

namespace Program

/-- The lines of a program, one for each statement. -/
def renderStatements : List Statement → List String
  | [] => []
  | [last] => [last.render]
  | .expression e :: statements => (e.render ++ ";") :: renderStatements statements
  | statement :: statements => statement.render :: renderStatements statements

def render (p : Program) : String := "\n".intercalate (renderStatements p.statements)

end Program

end PayFormula
