import PayFormula.Decimal.Shortest
import PayFormula.Parse.Program
import PayFormula.Report.Layout

/-!
# Tree reports

A program with everything its nodes hold, followed by a line for each error.
-/
namespace PayFormula

def Position.layout (p : Position) : Layout :=
  .record "Position" [("line", .ofNat p.line), ("column", .ofNat p.column)]

def Span.layout (s : Span) : Layout :=
  .record "Span" [("start", s.first.layout), ("end", s.last.layout)]

def TokenKind.layout : TokenKind → Layout
  | .illegal fault => .tagged "Illegal" [.leaf fault.name]
  | kind => .leaf kind.name

def Token.layout (t : Token) : Layout :=
  .record "Token" [
    ("kind", t.kind.layout),
    ("literal", .leaf (Text.quote t.literal)),
    ("start", t.first.layout),
    ("end", t.last.layout),
    ("span", .leaf (toString t.start ++ ".." ++ toString t.stop))]

def CalendarError.name : CalendarError → String
  | .dateFormat => "DateFormat"
  | .dateOutOfBounds => "DateOutOfBounds"
  | .noSuchDay => "InvalidCalendarDate"
  | .timeFormat => "TimeFormat"
  | .timeOutOfRange => "TimeOutOfRange"

namespace SyntaxError

def Cause.name : Cause → String
  | .unexpectedToken _ => "UnexpectedToken"
  | .reservedWord => "ReservedWord"
  | .blankName => "BlankIdent"
  | .missingSemicolon _ => "MissingSemicolon"
  | .unclosed _ => "UnclosedDelimiter"
  | .noOperand => "NoPrefix"
  | .missingLeft => "MissingLeft"
  | .lexical _ => "Lexical"
  | .invalidDate _ => "InvalidDate"
  | .invalidTime _ => "InvalidTime"
  | .invalidNumber => "InvalidNumber"
  | .tooDeep => "TooDeep"

def Cause.layout (cause : Cause) : Layout :=
  match cause with
  | .unexpectedToken expected =>
    .record cause.name [("expected", .list (expected.map TokenKind.layout))]
  | .unclosed opening => .record cause.name [("open", (TokenKind.mark opening).layout)]
  | .lexical fault => .tagged cause.name [.leaf fault.name]
  | .invalidDate error => .tagged cause.name [.leaf error.name]
  | .invalidTime error => .tagged cause.name [.leaf error.name]
  | _ => .leaf cause.name

def layout (e : SyntaxError) : Layout :=
  .record "ParseError" [
    ("kind", e.cause.layout),
    ("message", .leaf (Text.quote e.message)),
    ("token", e.token.layout)]

/-- One line on an error. -/
def describe (e : SyntaxError) : String := "error: " ++ e.message ++ " at " ++ e.span.render

end SyntaxError

def Ident.layout (i : Ident) : Layout :=
  .record "Ident" [("token", i.token.layout), ("name", .leaf (Text.quote i.name))]

def StringLiteral.layout (s : StringLiteral) : Layout :=
  .record "StringLiteral" [("token", s.token.layout)]

def Comment.layout (c : Comment) : Layout := .record "Comment" [("token", c.token.layout)]

/-- A name clause under the name of its kind. -/
def NameClause.layout (name : String) (c : NameClause) : Layout :=
  .record name [("token", c.token.layout), ("name", c.name.layout)]

def ListLiteral.layout (l : ListLiteral) : Layout :=
  .record "ListLiteral" [
    ("lbracket", l.lbracket.layout),
    ("strings", .list (l.strings.map StringLiteral.layout)),
    ("rbracket", l.rbracket.layout)]

def Collection.layout : Collection → Layout
  | .list l => .tagged "List" [l.layout]
  | .set s => .tagged "Set" [s.layout "SetExpr"]

def UnaryOp.name : UnaryOp → String
  | .negate => "Negate"
  | .not => "Not"

def BinaryOp.name : BinaryOp → String
  | .add => "Add"
  | .sub => "Sub"
  | .mul => "Mul"
  | .div => "Div"
  | .mod => "Mod"
  | .gt => "Gt"
  | .lt => "Lt"
  | .gte => "Gte"
  | .lte => "Lte"
  | .eq => "Eq"
  | .neq => "Neq"
  | .and => "And"
  | .or => "Or"

def Direction.name : Direction → String
  | .ascending => "Asc"
  | .descending => "Desc"

def OrderDirection.layout (d : OrderDirection) : Layout :=
  .record "OrderDirection" [("token", d.token.layout), ("direction", .leaf d.direction.name)]

def Date.layout (d : Date) : Layout :=
  .record "Date" [("year", .ofNat d.year), ("month", .ofNat d.month), ("day", .ofNat d.day)]

def Clock.layout (c : Clock) : Layout :=
  .record "Clock" [("hour", .ofNat c.hour), ("minute", .ofNat c.minute)]

/-- A block from the layouts of its parts. -/
def Layout.ofBlock (bindings : List Layout) (value : Layout) : Layout :=
  .record "BlockExpr" [("vars", .list bindings), ("value", value)]

/-- A binding from the layout of its value. -/
def BindingOf.layoutWith {ε : Type} (b : BindingOf ε) (value : Layout) : Layout :=
  .record "VarBinding" [
    ("token", b.token.layout),
    ("name", b.name.layout),
    ("value", value),
    ("semicolon", b.semicolon.layout)]

mutual

def Expr.layout : Expr → Layout
  | .ident i => .tagged "Ident" [i.layout]
  | .number t value =>
    .tagged "Number" [
      .record "NumberLiteral" [("token", t.layout), ("value", .leaf value.inspect)]]
  | .string s => .tagged "String" [s.layout]
  | .boolean t value =>
    .tagged "Boolean" [
      .record "BooleanLiteral" [
        ("token", t.layout), ("value", .leaf (if value then "true" else "false"))]]
  | .date t d =>
    .tagged "Date" [.record "DateLiteral" [("token", t.layout), ("date", d.layout)]]
  | .time t c =>
    .tagged "Time" [.record "TimeLiteral" [("token", t.layout), ("clock", c.layout)]]
  | .blank t => .tagged "Blank" [.record "BlankExpr" [("token", t.layout)]]
  | .unary t op operand =>
    .tagged "Prefix" [
      .record "PrefixExpr" [
        ("token", t.layout), ("op", .leaf op.name), ("right", operand.layout)]]
  | .binary t left op right =>
    .tagged "Infix" [
      .record "InfixExpr" [
        ("token", t.layout), ("left", left.layout), ("op", .leaf op.name),
        ("right", right.layout)]]
  | .paren l ⟨bindings, value⟩ r =>
    .tagged "Paren" [
      .record "ParenExpr" [
        ("lparen", l.layout), ("inner", .ofBlock (bindingLayouts bindings) value.layout),
        ("rparen", r.layout)]]
  | .block ⟨bindings, value⟩ =>
    .tagged "Block" [.ofBlock (bindingLayouts bindings) value.layout]
  | .macroCall dollar name l args r closing =>
    .tagged "Macro" [
      .record "MacroExpr" [
        ("dollar", dollar.layout), ("name", name.layout), ("lparen", l.layout),
        ("args", .list (exprLayouts args)), ("rparen", r.layout), ("closing", closing.layout)]]
  | .call t l args r =>
    .tagged "BuiltinCall" [
      .record "BuiltinCall" [
        ("token", t.layout), ("name", .leaf (Text.quote (Text.lowercase t.literal))),
        ("lparen", l.layout), ("args", .list (exprLayouts args)), ("rparen", r.layout)]]
  | .overClause t context aliased =>
    .tagged "Over" [
      .record "OverExpr" [
        ("token", t.layout), ("context", context.layout),
        ("alias", .ofOption (aliased.map (NameClause.layout "AliasExpr")))]]
  | .filter t condition =>
    .tagged "Where" [
      .record "WhereExpr" [("token", t.layout), ("condition", condition.layout)]]
  | .orderBy t byToken key direction =>
    .tagged "OrderBy" [
      .record "OrderByExpr" [
        ("token", t.layout), ("by", byToken.layout), ("expr", key.layout),
        ("direction", .ofOption (direction.map OrderDirection.layout))]]
  | .label clause => .tagged "Alias" [clause.layout "AliasExpr"]
  | .set clause => .tagged "Set" [clause.layout "SetExpr"]
  | .list l => .tagged "List" [l.layout]
  | .member t left collection =>
    .tagged "In" [
      .record "InExpr" [
        ("token", t.layout), ("left", left.layout), ("list", collection.layout)]]
  | .failed e tokens =>
    .tagged "Error" [
      .record "ErrorExpr" [("error", e.layout), ("tokens", .list (tokens.map Token.layout))]]

def exprLayouts : List Expr → List Layout
  | [] => []
  | e :: es => e.layout :: exprLayouts es

def bindingLayouts : List (BindingOf Expr) → List Layout
  | [] => []
  | ⟨t, name, value, semicolon⟩ :: bindings =>
    BindingOf.layoutWith (⟨t, name, value, semicolon⟩ : BindingOf Expr) value.layout ::
      bindingLayouts bindings

end

def Statement.layout : Statement → Layout
  | .expression e =>
    .tagged "Expression" [.record "ExpressionStmt" [("expression", e.layout)]]
  | .binding b => .tagged "Var" [b.layoutWith b.value.layout]
  | .lineComment c => .tagged "LineComment" [c.layout]
  | .blockComment c => .tagged "BlockComment" [c.layout]

def Program.layout (p : Program) : Layout :=
  .record "Program" [
    ("statements", .list (p.statements.map Statement.layout)),
    ("span", p.span.layout)]

namespace Report

def tree (source : String) : String :=
  let parsed := parse source
  parsed.program.layout.render ++ "\n" ++
    String.join (parsed.errors.map fun e => e.describe ++ "\n")

end Report

end PayFormula
