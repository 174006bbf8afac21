import PayFormula.Decimal.Double
import PayFormula.Syntax.Error

/-!
# Syntax trees

Programs, statements and expressions. A node keeps the tokens it was built
from, and its span is read off them. Parentheses are nodes of their own, so the
shape of a tree never has to be inferred from binding powers.
-/
namespace PayFormula

structure Ident where
  token : Token
  deriving DecidableEq, Repr, Inhabited

def Ident.name (i : Ident) : String := i.token.literal

def Ident.span (i : Ident) : Span := i.token.span

structure StringLiteral where
  token : Token
  deriving DecidableEq, Repr, Inhabited

def StringLiteral.value (s : StringLiteral) : String := s.token.literal

def StringLiteral.span (s : StringLiteral) : Span := s.token.span

structure Comment where
  token : Token
  deriving DecidableEq, Repr, Inhabited

def Comment.span (c : Comment) : Span := c.token.span

inductive UnaryOp where
  | negate
  | not
  deriving DecidableEq, Repr, Inhabited

def UnaryOp.text : UnaryOp → String
  | .negate => "-"
  | .not => "!"

inductive BinaryOp where
  | add
  | sub
  | mul
  | div
  | mod
  | gt
  | lt
  | gte
  | lte
  | eq
  | neq
  | and
  | or
  deriving DecidableEq, Repr, Inhabited

namespace BinaryOp

/-- The mark that is written for the operator. -/
def mark : BinaryOp → Mark
  | .add => .plus
  | .sub => .minus
  | .mul => .asterisk
  | .div => .slash
  | .mod => .modulo
  | .gt => .gt
  | .lt => .lt
  | .gte => .gte
  | .lte => .lte
  | .eq => .eq
  | .neq => .neq
  | .and => .and
  | .or => .or

def text (op : BinaryOp) : String := op.mark.text

def ofMark? : Mark → Option BinaryOp
  | .plus => some .add
  | .minus => some .sub
  | .asterisk => some .mul
  | .slash => some .div
  | .modulo => some .mod
  | .gt => some .gt
  | .lt => some .lt
  | .gte => some .gte
  | .lte => some .lte
  | .eq => some .eq
  | .neq => some .neq
  | .and => some .and
  | .or => some .or
  | _ => none

theorem ofMark?_eq_some_iff {m : Mark} {op : BinaryOp} : ofMark? m = some op ↔ op.mark = m := by
  constructor
  · intro h
    cases m <;> simp only [ofMark?, Option.some.injEq, reduceCtorEq] at h <;> subst h <;> rfl
  · rintro rfl
    cases op <;> rfl

end BinaryOp

/-- A keyword and the name after it: `alias NAME` or `set NAME`. -/
structure NameClause where
  token : Token
  name : Ident
  deriving DecidableEq, Repr, Inhabited

def NameClause.span (c : NameClause) : Span := ⟨c.token.first, c.name.token.last⟩

structure ListLiteral where
  lbracket : Token
  strings : List StringLiteral
  rbracket : Token
  deriving DecidableEq, Repr, Inhabited

def ListLiteral.span (l : ListLiteral) : Span := ⟨l.lbracket.first, l.rbracket.last⟩

/-- What `in` tests membership of. -/
inductive Collection where
  | list (list : ListLiteral)
  | set (set : NameClause)
  deriving DecidableEq, Repr, Inhabited

def Collection.span : Collection → Span
  | .list l => l.span
  | .set s => s.span

inductive Direction where
  | ascending
  | descending
  deriving DecidableEq, Repr, Inhabited

structure OrderDirection where
  token : Token
  direction : Direction
  deriving DecidableEq, Repr, Inhabited

/-- `var NAME = VALUE ;` over values of some type. -/
structure BindingOf (ε : Type) where
  token : Token
  name : Ident
  value : ε
  semicolon : Token
  deriving DecidableEq, Repr, Inhabited

def BindingOf.span {ε : Type} (b : BindingOf ε) : Span := ⟨b.token.first, b.semicolon.last⟩

/-- Bindings and the one value after them. -/
structure BlockOf (ε : Type) where
  bindings : List (BindingOf ε)
  value : ε
  deriving Repr, Inhabited

inductive Expr where
  | ident (ident : Ident)
  | number (token : Token) (value : Double)
  | string (literal : StringLiteral)
  | boolean (token : Token) (value : Bool)
  | date (token : Token) (date : Date)
  | time (token : Token) (clock : Clock)
  /-- What `()` encloses. -/
  | blank (token : Token)
  | unary (token : Token) (op : UnaryOp) (operand : Expr)
  | binary (token : Token) (left : Expr) (op : BinaryOp) (right : Expr)
  | paren (lparen : Token) (inner : BlockOf Expr) (rparen : Token)
  | block (block : BlockOf Expr)
  /-- `$NAME(ARGS)$`. -/
  | macroCall (dollar : Token) (name : Ident) (lparen : Token) (args : List Expr)
      (rparen closing : Token)
  /-- `NAME(ARGS)` for a builtin function. -/
  | call (token lparen : Token) (args : List Expr) (rparen : Token)
  | overClause (token : Token) (context : Expr) (aliased : Option NameClause)
  | filter (token : Token) (condition : Expr)
  | orderBy (token byToken : Token) (key : Expr) (direction : Option OrderDirection)
  | label (clause : NameClause)
  | set (clause : NameClause)
  | list (list : ListLiteral)
  | member (token : Token) (left : Expr) (collection : Collection)
  /-- Stands for an argument that could not be read, with the tokens passed over. -/
  | failed (error : SyntaxError) (tokens : List Token)
  deriving Repr

instance : Inhabited Expr := ⟨.blank default⟩

abbrev Binding := BindingOf Expr
abbrev Block := BlockOf Expr

namespace Expr

def span : Expr → Span
  | .ident i => i.span
  | .number t _ => t.span
  | .string s => s.span
  | .boolean t _ => t.span
  | .date t _ => t.span
  | .time t _ => t.span
  | .blank t => t.span
  | .unary t _ operand => t.span.join operand.span
  | .binary _ left _ right => left.span.join right.span
  | .paren l _ r => ⟨l.first, r.last⟩
  | .block ⟨[], value⟩ => value.span
  | .block ⟨b :: _, value⟩ => b.span.join value.span
  | .macroCall dollar _ _ _ _ closing => ⟨dollar.first, closing.last⟩
  | .call t _ _ r => ⟨t.first, r.last⟩
  | .overClause t context none => t.span.join context.span
  | .overClause t _ (some aliased) => t.span.join aliased.span
  | .filter t condition => t.span.join condition.span
  | .orderBy t _ key none => t.span.join key.span
  | .orderBy t _ _ (some d) => t.span.join d.token.span
  | .label c => c.span
  | .set c => c.span
  | .list l => l.span
  | .member _ left collection => left.span.join collection.span
  | .failed _ (t :: ts) => ⟨t.first, ((t :: ts).getLast (by simp)).last⟩
  | .failed e [] => e.span

/-- The name of the kind of node. -/
def kindName : Expr → String
  | .ident _ => "Ident"
  | .number .. => "NumberLiteral"
  | .string _ => "StringLiteral"
  | .boolean .. => "BooleanLiteral"
  | .date .. => "DateLiteral"
  | .time .. => "TimeLiteral"
  | .blank _ => "BlankExpr"
  | .unary .. => "Prefix"
  | .binary .. => "Infix"
  | .paren .. => "Paren"
  | .block _ => "Block"
  | .macroCall .. => "Macro"
  | .call .. => "BuiltinCall"
  | .overClause .. => "Over"
  | .filter .. => "Where"
  | .orderBy .. => "OrderBy"
  | .label _ => "Alias"
  | .set _ => "Set"
  | .list _ => "ListLiteral"
  | .member .. => "InExpr"
  | .failed .. => "Error"

end Expr

def BlockOf.span (b : Block) : Span :=
  match b.bindings with
  | [] => b.value.span
  | first :: _ => first.span.join b.value.span

inductive Statement where
  | expression (value : Expr)
  | binding (binding : Binding)
  | lineComment (comment : Comment)
  | blockComment (comment : Comment)
  deriving Repr, Inhabited

def Statement.span : Statement → Span
  | .expression e => e.span
  | .binding b => b.span
  | .lineComment c => c.span
  | .blockComment c => c.span

structure Program where
  statements : List Statement
  /-- The whole text, from its origin to the place after its last byte. -/
  span : Span
  deriving Repr, Inhabited

end PayFormula
