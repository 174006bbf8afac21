import PayFormula.Parse.Cursor
import PayFormula.Parse.Precedence
import PayFormula.Syntax.Tree
import PayFormula.Token.Word

/-!
# Reading expressions

A precedence climber. `primary` reads what stands in front of the first
operator, `chain` goes on as long as the next operator binds more tightly than
the one on the left. Each expression entered and each operator chained onto a
left operand takes one level of nesting, and reading fails when no level is
left; the levels also bound the recursion.

A builtin call recovers from an argument that fails: a placeholder stands for
it, and reading goes on at the next `,` or `)` of the call.
-/
namespace PayFormula

/-- A reader of expressions above some binding power. -/
abbrev SubReader := Precedence → Read Expr

namespace Read

/-- The number of tokens left, which bounds every repetition. -/
def remaining : Read Nat := return (← rest).length

def number (t : Token) : Read Expr :=
  match Decimal.ofChars? t.literal.toList with
  | some d => pure (.number t d.toDouble)
  | none => fail .invalidNumber t

def date (t : Token) : Read Expr :=
  match Date.ofChars t.literal.toList with
  | .ok d => pure (.date t d)
  | .error e => fail (.invalidDate e) t

def time (t : Token) : Read Expr :=
  match Clock.ofChars t.literal.toList with
  | .ok c => pure (.time t c)
  | .error e => fail (.invalidTime e) t

/-- The current token as a name. -/
def ident : Read Ident := do
  let t ← current
  if t.literal = "" ∨ t.literal = "_" then fail .blankName t
  else if Word.isReserved t.literal then fail .reservedWord t
  else return ⟨t⟩

/-- Advances to the next token, which has to be a name. -/
def expectName : Read Ident := do
  let next ← peek
  match next.kind with
  | .ident => do
    advance
    ident
  | .builtin | .keyword _ => fail .reservedWord next
  | .mark m =>
    if m ∈ [.and, .or, .bang] ∧ Word.isReserved next.literal then fail .reservedWord next
    else fail (.unexpectedToken [.ident]) next
  | _ => fail (.unexpectedToken [.ident]) next

/-- The current keyword and the name after it. -/
def nameClause : Read NameClause := do
  let t ← current
  return ⟨t, ← expectName⟩

/-- Strings with commas between them, and perhaps one after the last. -/
def strings : Nat → Read (List StringLiteral)
  | 0 => return []
  | n + 1 => do
    let next ← peek
    if next.kind = .string then
      advance
      if (← peek).kind = .mark .comma then
        advance
        return ⟨next⟩ :: (← strings n)
      else return [⟨next⟩]
    else return []

/-- `[ "A", "B", ... ]`, possibly empty. -/
def list : Read ListLiteral := do
  let lbracket ← current
  let next ← peek
  if next.kind = .string ∨ next.kind = .mark .rbracket then
    let strings ← strings (← remaining)
    return ⟨lbracket, strings, ← expectClosing .lbracket .rbracket⟩
  else fail (.unexpectedToken [.string, .mark .rbracket]) next

/-- `var NAME = VALUE ;` -/
def binding (sub : SubReader) : Read Binding := do
  let t ← current
  let name ← expectName
  let _ ← expect (.mark .eq)
  advance
  let value ← sub .lowest
  let next ← peek
  if next.kind = .mark .semicolon then
    advance
    return ⟨t, name, value, next⟩
  else fail (.missingSemicolon name.name) next

def bindings (sub : SubReader) : Nat → Read (List Binding)
  | 0 => return []
  | n + 1 => do
    if (← current).kind = .keyword .varWord then
      let first ← binding sub
      advance
      return first :: (← bindings sub n)
    else return []

/-- Any number of bindings, then one value. -/
def block (sub : SubReader) : Read Block := do
  let bindings ← bindings sub (← remaining)
  return ⟨bindings, ← sub .lowest⟩

def paren (sub : SubReader) : Read Expr := do
  let lparen ← current
  let next ← peek
  if next.kind = .mark .rparen then
    advance
    return .paren lparen ⟨[], .blank lparen⟩ next
  else
    advance
    let inner ← block sub
    return .paren lparen inner (← expectClosing .lparen .rparen)

def macroArgs (sub : SubReader) : Nat → Read (List Expr)
  | 0 => return []
  | n + 1 => do
    advance
    let arg ← sub .lowest
    if (← peek).kind = .mark .comma then
      advance
      return arg :: (← macroArgs sub n)
    else return [arg]

/-- `$NAME(ARGS)$` -/
def macroCall (sub : SubReader) : Read Expr := do
  let dollar ← current
  let name ← expectName
  let lparen ← expect (.mark .lparen)
  let args ←
    if (← peek).kind = .mark .rparen then pure []
    else macroArgs sub (← remaining)
  let rparen ← expectClosing .lparen .rparen
  return .macroCall dollar name lparen args rparen (← expectClosing .dollar .dollar)

/-- A block; without bindings it is its value. Either `,` or `)` has to follow. -/
def argument (sub : SubReader) : Read Expr := do
  let inner ← block sub
  let next ← peek
  if next.kind = .mark .comma ∨ next.kind = .mark .rparen then
    return if inner.bindings.isEmpty then inner.value else .block inner
  else fail (.unclosed .lparen) next

/-- What stands for an argument that failed, and the cursor on the `,` or `)`
after it. Without one of the two the call fails with the same error. -/
def recover (start : List Token) (e : SyntaxError) : Read Expr :=
  match splitAtStop? [.mark .comma, .mark .rparen] 0 start with
  | none => throw e
  | some (skipped, stop) => do
    record e
    seek stop
    return .failed e (skipped.filter (!·.kind.isComment))

/-- An argument or what stands for it, and the cursor on the `,` or `)` after it. -/
def argumentOrPlaceholder (sub : SubReader) : Read Expr := do
  let start ← rest
  match ← attempt (argument sub) with
  | .ok arg => do
    advance
    return arg
  | .error e => recover start e

/-- Arguments up to the closing parenthesis, which is handed out too. -/
def arguments (sub : SubReader) : Nat → Read (List Expr × Token)
  | 0 => do fail (.unclosed .lparen) (← peek)
  | n + 1 => do
    advance
    let arg ← argumentOrPlaceholder sub
    let stop ← current
    if stop.kind = .mark .rparen then return ([arg], stop)
    else
      let (args, rparen) ← arguments sub n
      return (arg :: args, rparen)

/-- `NAME(ARG, ARG, ...)` -/
def call (sub : SubReader) : Read Expr := do
  let t ← current
  let lparen ← expect (.mark .lparen)
  let next ← peek
  if next.kind = .mark .rparen then
    advance
    return .call t lparen [] next
  else
    let (args, rparen) ← arguments sub (← remaining)
    return .call t lparen args rparen

def unary (op : UnaryOp) (sub : SubReader) : Read Expr := do
  let t ← current
  advance
  return .unary t op (← sub .unary)

/-- `over CONTEXT [alias NAME]` -/
def overClause (sub : SubReader) : Read Expr := do
  let t ← current
  advance
  let context ← sub .lowest
  if (← peek).kind = .keyword .aliasWord then
    advance
    return .overClause t context (some (← nameClause))
  else return .overClause t context none

/-- `where CONDITION` -/
def filter (sub : SubReader) : Read Expr := do
  let t ← current
  advance
  return .filter t (← sub .lowest)

/-- `order by KEY [asc|desc]` -/
def orderBy (sub : SubReader) : Read Expr := do
  let t ← current
  let byToken ← expect (.keyword .byWord)
  advance
  let key ← sub .lowest
  let next ← peek
  match next.kind with
  | .keyword .ascWord => do
    advance
    return .orderBy t byToken key (some ⟨next, .ascending⟩)
  | .keyword .descWord => do
    advance
    return .orderBy t byToken key (some ⟨next, .descending⟩)
  | _ => return .orderBy t byToken key none

/-- Why no expression starts with a token of some kind. -/
def noPrimary : TokenKind → SyntaxError.Cause
  | .illegal fault => .lexical fault
  | .keyword .inWord => .missingLeft
  | .mark m => if (BinaryOp.ofMark? m).isSome then .missingLeft else .noOperand
  | _ => .noOperand

/-- What stands in front of the first operator. -/
def primary (sub : SubReader) : Read Expr := do
  let t ← current
  match t.kind with
  | .int | .float => number t
  | .ident => return .ident (← ident)
  | .string => return .string ⟨t⟩
  | .keyword .trueWord => return .boolean t true
  | .keyword .falseWord => return .boolean t false
  | .date => date t
  | .time => time t
  | .mark .minus => unary .negate sub
  | .mark .bang => unary .not sub
  | .mark .lparen => paren sub
  | .mark .dollar => macroCall sub
  | .builtin => call sub
  | .keyword .overWord => overClause sub
  | .keyword .whereWord => filter sub
  | .keyword .orderWord => orderBy sub
  | .keyword .aliasWord => return .label (← nameClause)
  | .keyword .setWord => return .set (← nameClause)
  | .mark .lbracket => return .list (← list)
  | kind => fail (noPrimary kind) t

/-- `LEFT in [ ... ]` or `LEFT in set NAME`. -/
def member (left : Expr) : Read Expr := do
  let t ← current
  let next ← peek
  match next.kind with
  | .mark .lbracket => do
    advance
    return .member t left (.list (← list))
  | .keyword .setWord => do
    advance
    return .member t left (.set (← nameClause))
  | _ => fail (.unexpectedToken [.mark .lbracket, .keyword .setWord]) next

/-- The operator under the cursor applied to a left operand. -/
def operator (sub : SubReader) (left : Expr) : Read Expr := do
  let t ← current
  match t.kind with
  | .keyword .inWord => member left
  | .mark m =>
    match BinaryOp.ofMark? m with
    | some op => do
      advance
      return .binary t left op (← sub (.ofMark m))
    | none => fail (noPrimary t.kind) t
  | kind => fail (noPrimary kind) t

mutual

/-- An expression of operators that bind more tightly than `power`, with a
number of levels of nesting left. -/
def expression : Nat → SubReader
  | 0, _ => do fail .tooDeep (← current)
  | levels + 1, power => do
    let left ← primary (expression levels)
    chain levels power left

/-- Goes on after a left operand. -/
def chain : Nat → Precedence → Expr → Read Expr
  | 0, power, left => do
    if power < .of (← peek).kind then
      advance
      fail .tooDeep (← current)
    else return left
  | levels + 1, power, left => do
    if power < .of (← peek).kind then
      advance
      let left ← operator (expression levels) left
      chain levels power left
    else return left

end

end Read

end PayFormula
