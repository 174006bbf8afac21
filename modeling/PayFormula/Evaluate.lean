import PayFormula.Catalog
import PayFormula.Object

/-!
# Static evaluation

One pass over a program in the order of its text. It records every binding,
also those inside blocks and arguments, after the variables of its own value,
and finds what is known of each value: a literal is itself, an identifier the
latest variable of its name, a call some value of its function's type, a block
its last expression. Everything else is undefined.
-/
namespace PayFormula

namespace Evaluate

/-- The latest variable of a name among those declared so far. -/
def latest? (name : String) (declared : List Variable) : Option Variable :=
  declared.reverse.find? (·.name == name)

mutual

/-- The object of an expression, and the variables declared by the end of it. -/
def expr : Expr → List Variable → Object × List Variable
  | .number _ value, declared => (.number (some value), declared)
  | .string s, declared => (.string (some s.value), declared)
  | .boolean _ value, declared => (.boolean (some value), declared)
  | .date _ d, declared => (.date (some d), declared)
  | .time _ c, declared => (.time (some c), declared)
  | .ident i, declared =>
    match latest? i.name declared with
    | some v => (.variable v, declared)
    | none => (.undefined i.span, declared)
  | .paren _ ⟨bindings, value⟩ _, declared => expr value (all bindings declared)
  | .block ⟨bindings, value⟩, declared => expr value (all bindings declared)
  | .call t l args r, declared =>
    let span := Expr.span (.call t l args r)
    let object := match Catalog.lookup? t.literal with
      | some f => .ofType span f.returnType
      | none => .undefined span
    (object, exprs args declared)
  | .unary t op operand, declared =>
    (.undefined (Expr.span (.unary t op operand)), (expr operand declared).2)
  | .binary t left op right, declared =>
    (.undefined (Expr.span (.binary t left op right)), (expr right (expr left declared).2).2)
  | .macroCall d n l args r c, declared =>
    (.undefined (Expr.span (.macroCall d n l args r c)), exprs args declared)
  | .overClause t context aliased, declared =>
    (.undefined (Expr.span (.overClause t context aliased)), (expr context declared).2)
  | .filter t condition, declared =>
    (.undefined (Expr.span (.filter t condition)), (expr condition declared).2)
  | .orderBy t b key direction, declared =>
    (.undefined (Expr.span (.orderBy t b key direction)), (expr key declared).2)
  | .member t left collection, declared =>
    (.undefined (Expr.span (.member t left collection)), (expr left declared).2)
  | .blank t, declared => (.undefined t.span, declared)
  | .label clause, declared => (.undefined clause.span, declared)
  | .set clause, declared => (.undefined clause.span, declared)
  | .list l, declared => (.undefined l.span, declared)
  | .failed e tokens, declared => (.undefined (Expr.span (.failed e tokens)), declared)

/-- The variables declared by the end of expressions read one after another. -/
def exprs : List Expr → List Variable → List Variable
  | [], declared => declared
  | e :: es, declared => exprs es (expr e declared).2

/-- The variables declared by the end of bindings. -/
def all : List (BindingOf Expr) → List Variable → List Variable
  | [], declared => declared
  | ⟨t, name, value, semicolon⟩ :: bindings, declared =>
    let (object, declared) := expr value declared
    all bindings (declared ++
      [{ name := name.name, binding := ⟨t, name, value, semicolon⟩, value := object }])

end

/-- The variable of a binding, and the variables declared by the end of it. -/
def binding (b : Binding) (declared : List Variable) : Variable × List Variable :=
  let (object, declared) := expr b.value declared
  let v : Variable := { name := b.name.name, binding := b, value := object }
  (v, declared ++ [v])

end Evaluate

structure Evaluation where
  /-- The object of the last statement that is no comment. -/
  value : Option Object
  /-- All declared variables, in the order of their declarations. -/
  declared : List Variable
  deriving Repr, Inhabited

namespace Evaluation

def ofStatement (before : Evaluation) : Statement → Evaluation
  | .expression e =>
    let (object, declared) := Evaluate.expr e before.declared
    ⟨some object, declared⟩
  | .binding b =>
    let (v, declared) := Evaluate.binding b before.declared
    ⟨some (.variable v), declared⟩
  | .lineComment _ => before
  | .blockComment _ => before

end Evaluation

def evaluate (p : Program) : Evaluation :=
  p.statements.foldl Evaluation.ofStatement ⟨none, []⟩

end PayFormula
