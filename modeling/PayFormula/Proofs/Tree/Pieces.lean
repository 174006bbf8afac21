import PayFormula.Proofs.Grammar
import PayFormula.Proofs.Token.Again
import PayFormula.Syntax.Printer

/-!
# The pieces of printed trees

What the tokens of a printed tree are: operators and keywords in their one
spelling, names and literals as they stand in the tree, and what encloses and
separates the parts of a node.
-/
namespace PayFormula

/-- Pieces with commas between them. -/
def commaSeparated (parts : List (List Piece)) : List Piece := [Mark.comma.piece].intercalate parts

theorem commaSeparated_cons {part : List Piece} {parts : List (List Piece)} (h : parts ≠ []) :
    commaSeparated (part :: parts) = part ++ Mark.comma.piece :: commaSeparated parts := by
  obtain ⟨next, others, rfl⟩ := List.exists_cons_of_ne_nil h
  rw [commaSeparated, List.intercalate_cons_cons, List.append_assoc]
  rfl

def Ident.piece (i : Ident) : Piece := i.token.piece

def StringLiteral.piece (s : StringLiteral) : Piece := s.token.piece

def ListLiteral.pieces (l : ListLiteral) : List Piece :=
  Mark.lbracket.piece :: commaSeparated (l.strings.map ([·.piece])) ++ [Mark.rbracket.piece]

def NameClause.pieces (word : Keyword) (c : NameClause) : List Piece := [word.piece, c.name.piece]

def Collection.pieces : Collection → List Piece
  | .list l => l.pieces
  | .set s => s.pieces .setWord

def Direction.word : Direction → Keyword
  | .ascending => .ascWord
  | .descending => .descWord

mutual

def Expr.pieces : Expr → List Piece
  | .ident i => [i.piece]
  | .number t _ => [t.piece]
  | .string s => [s.piece]
  | .boolean _ value => [(if value then Keyword.trueWord else .falseWord).piece]
  | .date _ d => [(.date, d.render)]
  | .time _ c => [(.time, c.render)]
  | .blank _ => []
  | .unary _ op operand => op.mark.piece :: operand.pieces
  | .binary _ left op right => left.pieces ++ op.mark.piece :: right.pieces
  | .paren _ ⟨bindings, value⟩ _ =>
    Mark.lparen.piece :: (bindingsPieces bindings ++ value.pieces) ++ [Mark.rparen.piece]
  | .block ⟨bindings, value⟩ => bindingsPieces bindings ++ value.pieces
  | .macroCall _ name _ args _ _ =>
    Mark.dollar.piece :: name.piece :: Mark.lparen.piece :: commaSeparated (argsPieces args) ++
      [Mark.rparen.piece, Mark.dollar.piece]
  | .call t _ args _ =>
    t.piece :: Mark.lparen.piece :: commaSeparated (argsPieces args) ++ [Mark.rparen.piece]
  | .overClause _ context aliased =>
    Keyword.overWord.piece :: context.pieces ++
      match aliased with
      | some clause => clause.pieces .aliasWord
      | none => []
  | .filter _ condition => Keyword.whereWord.piece :: condition.pieces
  | .orderBy _ _ key direction =>
    Keyword.orderWord.piece :: Keyword.byWord.piece :: key.pieces ++
      match direction with
      | some d => [d.direction.word.piece]
      | none => []
  | .label clause => clause.pieces .aliasWord
  | .set clause => clause.pieces .setWord
  | .list l => l.pieces
  | .member _ left collection => left.pieces ++ Keyword.inWord.piece :: collection.pieces
  | .failed _ tokens => tokens.map Token.piece

def argsPieces : List Expr → List (List Piece)
  | [] => []
  | arg :: args => arg.pieces :: argsPieces args

def bindingsPieces : List (BindingOf Expr) → List Piece
  | [] => []
  | ⟨_, name, value, _⟩ :: bindings =>
    Keyword.varWord.piece :: name.piece :: Mark.eq.piece :: value.pieces ++
      Mark.semicolon.piece :: bindingsPieces bindings

end

def BindingOf.pieces (b : Binding) : List Piece :=
  Keyword.varWord.piece :: b.name.piece :: Mark.eq.piece :: b.value.pieces ++
    [Mark.semicolon.piece]

theorem bindingsPieces_cons (b : Binding) (bs : List Binding) :
    bindingsPieces (b :: bs) = b.pieces ++ bindingsPieces bs := by
  rw [bindingsPieces, BindingOf.pieces]
  simp

/-- Bindings are printed one after another, each with a blank behind it. -/
theorem renderBindings_cons (b : Binding) (bs : List Binding) :
    renderBindings (b :: bs) = b.render ++ " " ++ renderBindings bs := by
  have hend : "; " = ";" ++ " " := rfl
  rw [renderBindings, BindingOf.render, hend, ← String.append_assoc]

def BlockOf.pieces (b : Block) : List Piece := bindingsPieces b.bindings ++ b.value.pieces

def Statement.pieces : Statement → List Piece
  | .expression e => e.pieces
  | .binding b => b.pieces
  | .lineComment c => [c.token.piece]
  | .blockComment c => [c.token.piece]

/-- The pieces of the lines of a program, one line for each statement. -/
def linePieces : List Statement → List (List Piece)
  | [] => []
  | [last] => [last.pieces]
  | .expression e :: statements =>
    (e.pieces ++ [Mark.semicolon.piece]) :: linePieces statements
  | statement :: statements => statement.pieces :: linePieces statements

/-- Statements that need no `;` behind them are lines of their own wherever they stand. -/
theorem lines_cons {s : Statement} (h : ∀ e, s ≠ .expression e) (ss : List Statement) :
    Program.renderStatements (s :: ss) = s.render :: Program.renderStatements ss ∧
      linePieces (s :: ss) = s.pieces :: linePieces ss := by
  cases ss with
  | nil => exact ⟨rfl, rfl⟩
  | cons s' ss =>
    cases s with
    | expression e => exact absurd rfl (h e)
    | binding | lineComment | blockComment => exact ⟨rfl, rfl⟩

end PayFormula
