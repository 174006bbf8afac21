import PayFormula.Proofs.Scope.Declared

/-!
# Trees with other tokens

What becomes of a tree when each of its tokens is replaced by another one. Its
nodes, names and bindings become those of the new tree, in the same order. The
name that an error mentions is replaced by one that stands for all names.
-/
namespace PayFormula

/-- Stands for all names. -/
def standIn : String := "x"

variable (f : Token → Token)

def SyntaxError.Cause.nameless : SyntaxError.Cause → SyntaxError.Cause
  | .missingSemicolon _ => .missingSemicolon standIn
  | cause => cause

def SyntaxError.map (e : SyntaxError) : SyntaxError := ⟨e.cause.nameless, f e.token⟩

def Ident.map (i : Ident) : Ident := ⟨f i.token⟩

def StringLiteral.map (s : StringLiteral) : StringLiteral := ⟨f s.token⟩

def Comment.map (c : Comment) : Comment := ⟨f c.token⟩

def ListLiteral.map (l : ListLiteral) : ListLiteral :=
  ⟨f l.lbracket, l.strings.map (·.map f), f l.rbracket⟩

def NameClause.map (c : NameClause) : NameClause := ⟨f c.token, c.name.map f⟩

def Collection.map : Collection → Collection
  | .list l => .list (l.map f)
  | .set s => .set (s.map f)

def OrderDirection.map (d : OrderDirection) : OrderDirection := ⟨f d.token, d.direction⟩

mutual

def Expr.map : Expr → Expr
  | .ident i => .ident (i.map f)
  | .number t value => .number (f t) value
  | .string s => .string (s.map f)
  | .boolean t value => .boolean (f t) value
  | .date t d => .date (f t) d
  | .time t c => .time (f t) c
  | .blank t => .blank (f t)
  | .unary t op operand => .unary (f t) op operand.map
  | .binary t left op right => .binary (f t) left.map op right.map
  | .paren l ⟨bindings, value⟩ r => .paren (f l) ⟨mapBindings bindings, value.map⟩ (f r)
  | .block ⟨bindings, value⟩ => .block ⟨mapBindings bindings, value.map⟩
  | .macroCall dollar name l args r closing =>
    .macroCall (f dollar) (name.map f) (f l) (mapArgs args) (f r) (f closing)
  | .call t l args r => .call (f t) (f l) (mapArgs args) (f r)
  | .overClause t context aliased =>
    .overClause (f t) context.map (aliased.map (NameClause.map f))
  | .filter t condition => .filter (f t) condition.map
  | .orderBy t byToken key direction =>
    .orderBy (f t) (f byToken) key.map (direction.map (OrderDirection.map f))
  | .label clause => .label (clause.map f)
  | .set clause => .set (clause.map f)
  | .list l => .list (l.map f)
  | .member t left collection => .member (f t) left.map (collection.map f)
  | .failed e tokens => .failed (e.map f) (tokens.map f)

def mapArgs : List Expr → List Expr
  | [] => []
  | arg :: args => arg.map :: mapArgs args

def mapBindings : List (BindingOf Expr) → List (BindingOf Expr)
  | [] => []
  | ⟨t, name, value, semicolon⟩ :: bindings =>
    ⟨f t, name.map f, value.map, f semicolon⟩ :: mapBindings bindings

end

def BindingOf.map (b : Binding) : Binding :=
  ⟨f b.token, b.name.map f, b.value.map f, f b.semicolon⟩

def BlockOf.map (b : Block) : Block := ⟨b.bindings.map (BindingOf.map f), b.value.map f⟩

def Statement.map : Statement → Statement
  | .expression e => .expression (e.map f)
  | .binding b => .binding (b.map f)
  | .lineComment c => .lineComment (c.map f)
  | .blockComment c => .blockComment (c.map f)

theorem mapArgs_eq_map (args : List Expr) : mapArgs f args = args.map (Expr.map f) := by
  induction args with
  | nil => rfl
  | cons arg args ih => rw [mapArgs, ih, List.map_cons]

theorem mapBindings_eq_map (bindings : List Binding) :
    mapBindings f bindings = bindings.map (BindingOf.map f) := by
  induction bindings with
  | nil => rfl
  | cons b bindings ih =>
    obtain ⟨t, name, value, semicolon⟩ := b
    rw [mapBindings, ih, List.map_cons, BindingOf.map]

theorem Expr.map_paren (l : Token) (inner : Block) (r : Token) :
    (Expr.paren l inner r).map f = .paren (f l) (inner.map f) (f r) := by
  rw [Expr.map, mapBindings_eq_map]
  rfl

theorem Expr.map_block (b : Block) : (Expr.block b).map f = .block (b.map f) := by
  rw [Expr.map, mapBindings_eq_map]
  rfl

/-! ### Replacing tokens twice -/

section Twice

variable (g : Token → Token)

theorem SyntaxError.map_map (e : SyntaxError) : (e.map f).map g = e.map (g ∘ f) := by
  unfold map
  congr 1
  cases e.cause <;> rfl

theorem ListLiteral.map_map (l : ListLiteral) : (l.map f).map g = l.map (g ∘ f) := by
  rw [map, map, map, List.map_map]
  rfl

theorem Collection.map_map (c : Collection) : (c.map f).map g = c.map (g ∘ f) := by
  cases c with
  | list l => exact congrArg Collection.list (l.map_map f g)
  | set c => rfl

mutual

theorem Expr.map_map : (e : Expr) → (e.map f).map g = e.map (g ∘ f)
  | .ident _ | .number .. | .string _ | .boolean .. | .date .. | .time .. | .blank _ | .label _
  | .set _ => by simp only [Expr.map]; rfl
  | .unary _ _ operand => by rw [Expr.map, Expr.map, Expr.map, operand.map_map]; rfl
  | .binary _ left _ right => by
    rw [Expr.map, Expr.map, Expr.map, left.map_map, right.map_map]
    rfl
  | .paren _ ⟨bindings, value⟩ _ => by
    rw [Expr.map, Expr.map, Expr.map, mapBindings_map bindings, value.map_map]
    rfl
  | .block ⟨bindings, value⟩ => by
    rw [Expr.map, Expr.map, Expr.map, mapBindings_map bindings, value.map_map]
  | .macroCall _ _ _ args _ _ => by
    rw [Expr.map, Expr.map, Expr.map, mapArgs_map args]
    rfl
  | .call _ _ args _ => by
    rw [Expr.map, Expr.map, Expr.map, mapArgs_map args]
    rfl
  | .overClause _ context aliased => by
    rw [Expr.map, Expr.map, Expr.map, context.map_map, Option.map_map]
    rfl
  | .filter _ condition => by rw [Expr.map, Expr.map, Expr.map, condition.map_map]; rfl
  | .orderBy _ _ key direction => by
    rw [Expr.map, Expr.map, Expr.map, key.map_map, Option.map_map]
    rfl
  | .list l => by rw [Expr.map, Expr.map, Expr.map, l.map_map]
  | .member _ left collection => by
    rw [Expr.map, Expr.map, Expr.map, left.map_map, collection.map_map]
    rfl
  | .failed e tokens => by rw [Expr.map, Expr.map, Expr.map, e.map_map, List.map_map]

theorem mapArgs_map : (args : List Expr) → mapArgs g (mapArgs f args) = mapArgs (g ∘ f) args
  | [] => rfl
  | arg :: args => by rw [mapArgs, mapArgs, mapArgs, arg.map_map, mapArgs_map args]

theorem mapBindings_map : (bindings : List Binding) →
    mapBindings g (mapBindings f bindings) = mapBindings (g ∘ f) bindings
  | [] => rfl
  | ⟨_, name, value, _⟩ :: bindings => by
    rw [mapBindings, mapBindings, mapBindings, value.map_map, mapBindings_map bindings]
    rfl

end

end Twice

namespace Node

def map : Node → Node
  | .program p => .program ⟨p.statements.map (Statement.map f), p.span⟩
  | .binding b => .binding (b.map f)
  | .comment c => .comment (c.map f)
  | .expr e => .expr (e.map f)
  | .block b => .block (b.map f)
  | .ident i => .ident (i.map f)
  | .label c => .label (c.map f)
  | .set c => .set (c.map f)
  | .list l => .list (l.map f)
  | .string s => .string (s.map f)

theorem block_children_map (b : Block) : (b.map f).children = b.children.map (map f) := by
  simp only [BlockOf.map, BlockOf.children, List.map_append, List.map_map]
  rfl

theorem args_children_map (args : List Expr) :
    (mapArgs f args).map Node.expr = (args.map Node.expr).map (map f) := by
  rw [mapArgs_eq_map, List.map_map, List.map_map]
  rfl

theorem strings_children_map (l : ListLiteral) :
    (l.map f).strings.map Node.string = (l.strings.map Node.string).map (map f) := by
  rw [ListLiteral.map, List.map_map, List.map_map]
  rfl

theorem expr_children_map (e : Expr) : (e.map f).children = e.children.map (map f) := by
  cases e with
  | paren l inner r =>
    obtain ⟨bindings, value⟩ := inner
    simp only [Expr.map, Expr.children, mapBindings_eq_map]
    rfl
  | block b =>
    obtain ⟨bindings, value⟩ := b
    simp only [Expr.map, Expr.children, mapBindings_eq_map]
    exact block_children_map f ⟨bindings, value⟩
  | macroCall dollar name l args r closing =>
    simp only [Expr.map, Expr.children, List.map_cons, args_children_map]
    rfl
  | call t l args r =>
    simp only [Expr.map, Expr.children]
    exact args_children_map f args
  | overClause t context aliased =>
    simp only [Expr.map, Expr.children]
    cases aliased <;> rfl
  | list l =>
    simp only [Expr.map, Expr.children]
    exact strings_children_map f l
  | member t left collection =>
    simp only [Expr.map, Expr.children]
    cases collection <;> rfl
  | _ =>
    simp only [Expr.map, Expr.children]
    rfl

/-- What is below a node with other tokens are the nodes below it with these. -/
theorem children_map (node : Node) : (node.map f).children = node.children.map (map f) := by
  cases node with
  | program p =>
    simp only [map, children, List.map_map]
    refine List.map_congr_left fun s _ => ?_
    cases s <;> rfl
  | expr e => exact expr_children_map f e
  | block b => exact block_children_map f b
  | list l => exact strings_children_map f l
  | binding | comment | ident | label | set | string => rfl

theorem ident?_map (node : Node) : (node.map f).ident? = node.ident?.map (Ident.map f) := by
  cases node with
  | expr e => cases e <;> rfl
  | _ => rfl

theorem binding?_map (node : Node) :
    (node.map f).binding? = node.binding?.map (BindingOf.map f) := by
  cases node <;> rfl

theorem names_map (node : Node) : (node.map f).names = node.names.map (Ident.map f) := by
  induction node using Node.induction with
  | step node ih =>
    rw [names_eq, names_eq, ident?_map, children_map, List.flatMap_map, List.map_append,
      List.map_flatMap]
    congr 1
    · cases node.ident? <;> rfl
    · exact List.flatMap_congr ih

theorem bound_map (node : Node) : (node.map f).bound = node.bound.map (BindingOf.map f) := by
  induction node using Node.induction with
  | step node ih =>
    rw [bound_eq, bound_eq, binding?_map, children_map, List.flatMap_map, List.map_append,
      List.map_flatMap]
    congr 1
    · exact List.flatMap_congr ih
    · cases node.binding? <;> rfl

end Node

end PayFormula
