import PayFormula.Proofs.Tree.Mapped

/-!
# Trees with other tokens and names

What becomes of a tree when each of its tokens is replaced by another one and
each name that an error mentions by another name. Replacing all these names by
the one that stands for names is a case of it.
-/
namespace PayFormula

variable (f : Token → Token) (g : String → String)

def SyntaxError.Cause.replace : SyntaxError.Cause → SyntaxError.Cause
  | .missingSemicolon name => .missingSemicolon (g name)
  | cause => cause

def SyntaxError.replace (e : SyntaxError) : SyntaxError := ⟨e.cause.replace g, f e.token⟩

mutual

def Expr.replace : Expr → Expr
  | .ident i => .ident (i.map f)
  | .number t value => .number (f t) value
  | .string s => .string (s.map f)
  | .boolean t value => .boolean (f t) value
  | .date t d => .date (f t) d
  | .time t c => .time (f t) c
  | .blank t => .blank (f t)
  | .unary t op operand => .unary (f t) op operand.replace
  | .binary t left op right => .binary (f t) left.replace op right.replace
  | .paren l ⟨bindings, value⟩ r => .paren (f l) ⟨replaceBindings bindings, value.replace⟩ (f r)
  | .block ⟨bindings, value⟩ => .block ⟨replaceBindings bindings, value.replace⟩
  | .macroCall dollar name l args r closing =>
    .macroCall (f dollar) (name.map f) (f l) (replaceArgs args) (f r) (f closing)
  | .call t l args r => .call (f t) (f l) (replaceArgs args) (f r)
  | .overClause t context aliased =>
    .overClause (f t) context.replace (aliased.map (NameClause.map f))
  | .filter t condition => .filter (f t) condition.replace
  | .orderBy t byToken key direction =>
    .orderBy (f t) (f byToken) key.replace (direction.map (OrderDirection.map f))
  | .label clause => .label (clause.map f)
  | .set clause => .set (clause.map f)
  | .list l => .list (l.map f)
  | .member t left collection => .member (f t) left.replace (collection.map f)
  | .failed e tokens => .failed (e.replace f g) (tokens.map f)

def replaceArgs : List Expr → List Expr
  | [] => []
  | arg :: args => arg.replace :: replaceArgs args

def replaceBindings : List (BindingOf Expr) → List (BindingOf Expr)
  | [] => []
  | ⟨t, name, value, semicolon⟩ :: bindings =>
    ⟨f t, name.map f, value.replace, f semicolon⟩ :: replaceBindings bindings

end

def BindingOf.replace (b : Binding) : Binding :=
  ⟨f b.token, b.name.map f, b.value.replace f g, f b.semicolon⟩

def BlockOf.replace (b : Block) : Block :=
  ⟨b.bindings.map (BindingOf.replace f g), b.value.replace f g⟩

def Statement.replace : Statement → Statement
  | .expression e => .expression (e.replace f g)
  | .binding b => .binding (b.replace f g)
  | .lineComment c => .lineComment (c.map f)
  | .blockComment c => .blockComment (c.map f)

theorem replaceArgs_eq_map (args : List Expr) :
    replaceArgs f g args = args.map (Expr.replace f g) := by
  induction args with
  | nil => rfl
  | cons arg args ih => rw [replaceArgs, ih, List.map_cons]

theorem replaceBindings_eq_map (bindings : List Binding) :
    replaceBindings f g bindings = bindings.map (BindingOf.replace f g) := by
  induction bindings with
  | nil => rfl
  | cons b bindings ih =>
    obtain ⟨t, name, value, semicolon⟩ := b
    rw [replaceBindings, ih, List.map_cons, BindingOf.replace]

theorem Expr.replace_paren (l : Token) (inner : Block) (r : Token) :
    (Expr.paren l inner r).replace f g = .paren (f l) (inner.replace f g) (f r) := by
  rw [Expr.replace, replaceBindings_eq_map]
  rfl

theorem Expr.replace_block (b : Block) :
    (Expr.block b).replace f g = .block (b.replace f g) := by
  rw [Expr.replace, replaceBindings_eq_map]
  rfl

/-! ### One name for all -/

theorem SyntaxError.replace_standIn (e : SyntaxError) :
    e.replace f (fun _ => standIn) = e.map f := by
  obtain ⟨cause, t⟩ := e
  cases cause <;> rfl

mutual

theorem Expr.replace_standIn : (e : Expr) → e.replace f (fun _ => standIn) = e.map f
  | .ident _ | .number .. | .string _ | .boolean .. | .date .. | .time .. | .blank _ | .label _
  | .set _ | .list _ => by simp only [Expr.map, Expr.replace]
  | .unary _ _ operand => by rw [Expr.map, Expr.replace, operand.replace_standIn]
  | .binary _ left _ right => by
    rw [Expr.map, Expr.replace, left.replace_standIn, right.replace_standIn]
  | .paren _ ⟨bindings, value⟩ _ => by
    rw [Expr.map, Expr.replace, replaceBindings_standIn bindings, value.replace_standIn]
  | .block ⟨bindings, value⟩ => by
    rw [Expr.map, Expr.replace, replaceBindings_standIn bindings, value.replace_standIn]
  | .macroCall _ _ _ args _ _ => by rw [Expr.map, Expr.replace, replaceArgs_standIn args]
  | .call _ _ args _ => by rw [Expr.map, Expr.replace, replaceArgs_standIn args]
  | .overClause _ context _ => by rw [Expr.map, Expr.replace, context.replace_standIn]
  | .filter _ condition => by rw [Expr.map, Expr.replace, condition.replace_standIn]
  | .orderBy _ _ key _ => by rw [Expr.map, Expr.replace, key.replace_standIn]
  | .member _ left _ => by rw [Expr.map, Expr.replace, left.replace_standIn]
  | .failed e _ => by rw [Expr.map, Expr.replace, e.replace_standIn]

theorem replaceArgs_standIn :
    (args : List Expr) → replaceArgs f (fun _ => standIn) args = mapArgs f args
  | [] => rfl
  | arg :: args => by rw [mapArgs, replaceArgs, arg.replace_standIn, replaceArgs_standIn args]

theorem replaceBindings_standIn : (bindings : List Binding) →
    replaceBindings f (fun _ => standIn) bindings = mapBindings f bindings
  | [] => rfl
  | ⟨_, _, value, _⟩ :: bindings => by
    rw [mapBindings, replaceBindings, value.replace_standIn, replaceBindings_standIn bindings]

end

theorem Statement.replace_standIn (s : Statement) :
    s.replace f (fun _ => standIn) = s.map f := by
  cases s with
  | expression e => exact congrArg Statement.expression (e.replace_standIn f)
  | binding b =>
    refine congrArg Statement.binding ?_
    rw [BindingOf.replace, BindingOf.map, b.value.replace_standIn]
  | lineComment | blockComment => rfl

end PayFormula
