import PayFormula.Syntax.Tree

/-!
# Nodes

One view of everything in a tree that has a span and children. Statements are
no nodes of their own: the children of a program are its bindings, expressions
and comments. Whatever follows a tree downwards does so through
`Node.children`, which makes every child smaller than its parent.
-/
namespace PayFormula

inductive Node where
  | program (program : Program)
  | binding (binding : Binding)
  | comment (comment : Comment)
  | expr (expr : Expr)
  | block (block : Block)
  | ident (ident : Ident)
  | label (clause : NameClause)
  | set (clause : NameClause)
  | list (list : ListLiteral)
  | string (literal : StringLiteral)
  deriving Repr, Inhabited

def Statement.node : Statement → Node
  | .expression e => .expr e
  | .binding b => .binding b
  | .lineComment c => .comment c
  | .blockComment c => .comment c

def BlockOf.children (b : Block) : List Node := b.bindings.map .binding ++ [.expr b.value]

def Collection.node : Collection → Node
  | .list l => .list l
  | .set s => .set s

def Expr.children : Expr → List Node
  | .unary _ _ operand => [.expr operand]
  | .binary _ left _ right => [.expr left, .expr right]
  | .paren _ inner _ => [.block inner]
  | .block b => b.children
  | .macroCall _ name _ args _ _ => .ident name :: args.map .expr
  | .call _ _ args _ => args.map .expr
  | .overClause _ context aliased => .expr context :: aliased.toList.map .label
  | .filter _ condition => [.expr condition]
  | .orderBy _ _ key _ => [.expr key]
  | .label clause => [.ident clause.name]
  | .set clause => [.ident clause.name]
  | .list l => l.strings.map .string
  | .member _ left collection => [.expr left, collection.node]
  | _ => []

namespace Node

def span : Node → Span
  | .program p => p.span
  | .binding b => b.span
  | .comment c => c.span
  | .expr e => e.span
  | .block b => b.span
  | .ident i => i.span
  | .label c => c.span
  | .set c => c.span
  | .list l => l.span
  | .string s => s.span

def kindName : Node → String
  | .program _ => "Program"
  | .binding _ => "VarBinding"
  | .comment _ => "Comment"
  | .expr e => e.kindName
  | .block _ => "Block"
  | .ident _ => "Ident"
  | .label _ => "Alias"
  | .set _ => "Set"
  | .list _ => "ListLiteral"
  | .string _ => "StringLiteral"

/-- The identifier that a node is, as a name or as an expression. -/
def ident? : Node → Option Ident
  | .ident i => some i
  | .expr (.ident i) => some i
  | _ => none

def expr? : Node → Option Expr
  | .expr e => some e
  | _ => none

/-- The nodes directly below a node, in the order of the text. -/
def children : Node → List Node
  | .program p => p.statements.map Statement.node
  | .binding b => [.ident b.name, .expr b.value]
  | .block b => b.children
  | .expr e => e.children
  | .label c => [.ident c.name]
  | .set c => [.ident c.name]
  | .list l => l.strings.map .string
  | .comment _ => []
  | .ident _ => []
  | .string _ => []

/-- The size of a node, by which recursion over the tree ends. -/
noncomputable def size : Node → Nat
  | .program p => sizeOf p.statements + 1
  | .binding b => sizeOf b
  | .comment _ => 0
  | .expr e => sizeOf e
  | .block b => sizeOf b
  | .ident _ => 0
  | .label _ => 1
  | .set _ => 1
  | .list _ => 1
  | .string _ => 0

theorem size_lt_of_mem_block {b : Block} {child : Node} (h : child ∈ b.children) :
    child.size < sizeOf b := by
  obtain ⟨bindings, value⟩ := b
  simp only [BlockOf.children, List.mem_append, List.mem_map, List.mem_singleton] at h
  rcases h with ⟨b, hb, rfl⟩ | rfl
  · have := List.sizeOf_lt_of_mem hb
    simp only [size, BlockOf.mk.sizeOf_spec]
    omega
  · simp only [size, BlockOf.mk.sizeOf_spec]
    omega

theorem size_lt_of_mem_expr {e : Expr} {child : Node} (h : child ∈ e.children) :
    child.size < sizeOf e := by
  cases e with
  | unary | filter | orderBy =>
    simp only [Expr.children, List.mem_singleton] at h
    subst h
    simp only [size, Expr.unary.sizeOf_spec, Expr.filter.sizeOf_spec, Expr.orderBy.sizeOf_spec]
    omega
  | binary =>
    simp only [Expr.children, List.mem_cons, List.not_mem_nil, or_false] at h
    rcases h with rfl | rfl <;> simp only [size, Expr.binary.sizeOf_spec] <;> omega
  | paren =>
    simp only [Expr.children, List.mem_singleton] at h
    subst h
    simp only [size, Expr.paren.sizeOf_spec]
    omega
  | block b =>
    have := size_lt_of_mem_block h
    simp only [Expr.block.sizeOf_spec]
    omega
  | macroCall =>
    simp only [Expr.children, List.mem_cons, List.mem_map] at h
    rcases h with rfl | ⟨arg, ha, rfl⟩
    · simp only [size, Expr.macroCall.sizeOf_spec]
      omega
    · have := List.sizeOf_lt_of_mem ha
      simp only [size, Expr.macroCall.sizeOf_spec]
      omega
  | call =>
    simp only [Expr.children, List.mem_map] at h
    obtain ⟨arg, ha, rfl⟩ := h
    have := List.sizeOf_lt_of_mem ha
    simp only [size, Expr.call.sizeOf_spec]
    omega
  | overClause _ _ aliased =>
    simp only [Expr.children, List.mem_cons, List.mem_map] at h
    rcases h with rfl | ⟨clause, hc, rfl⟩
    · simp only [size, Expr.overClause.sizeOf_spec]
      omega
    · rw [Option.mem_toList] at hc
      subst hc
      simp only [size, Expr.overClause.sizeOf_spec, Option.some.sizeOf_spec]
      omega
  | label | set =>
    simp only [Expr.children, List.mem_singleton] at h
    subst h
    simp only [size, Expr.label.sizeOf_spec, Expr.set.sizeOf_spec]
    omega
  | list =>
    simp only [Expr.children, List.mem_map] at h
    obtain ⟨literal, _, rfl⟩ := h
    simp only [size, Expr.list.sizeOf_spec]
    omega
  | member _ _ collection =>
    simp only [Expr.children, List.mem_cons, List.not_mem_nil, or_false] at h
    rcases h with rfl | rfl
    · simp only [size, Expr.member.sizeOf_spec]
      omega
    · cases collection with
      | list | set =>
        simp only [size, Collection.node, Expr.member.sizeOf_spec, Collection.list.sizeOf_spec,
          Collection.set.sizeOf_spec]
        omega
  | _ => simp [Expr.children] at h

theorem size_lt_of_mem_children {node child : Node} (h : child ∈ node.children) :
    child.size < node.size := by
  cases node with
  | program p =>
    simp only [children, List.mem_map] at h
    obtain ⟨s, hs, rfl⟩ := h
    have := List.sizeOf_lt_of_mem hs
    cases s with
    | expression | binding =>
      simp only [size, Statement.node, Statement.expression.sizeOf_spec,
        Statement.binding.sizeOf_spec] at this ⊢
      omega
    | lineComment | blockComment =>
      simp only [size, Statement.node]
      omega
  | binding b =>
    obtain ⟨token, name, value, semicolon⟩ := b
    simp only [children, List.mem_cons, List.not_mem_nil, or_false] at h
    rcases h with rfl | rfl <;> simp only [size, BindingOf.mk.sizeOf_spec] <;> omega
  | block b => exact size_lt_of_mem_block h
  | expr e => exact size_lt_of_mem_expr h
  | label | set =>
    simp only [children, List.mem_singleton] at h
    subst h
    simp only [size]
    omega
  | list l =>
    simp only [children, List.mem_map] at h
    obtain ⟨literal, _, rfl⟩ := h
    simp only [size]
    omega
  | _ => simp [children] at h

/-- What holds of a node whenever it holds of its children holds of every node. -/
theorem induction {P : Node → Prop}
    (step : ∀ node, (∀ child ∈ node.children, P child) → P node) (node : Node) : P node :=
  step node fun child _ => induction step child
termination_by node.size
decreasing_by exact size_lt_of_mem_children ‹_›

/-- A node and everything below it, parents before children and children in the
order of the text, each with its depth. -/
def walkFrom (depth : Nat) (node : Node) : List (Nat × Node) :=
  (depth, node) :: node.children.attach.flatMap fun ⟨child, _⟩ => child.walkFrom (depth + 1)
termination_by node.size
decreasing_by exact size_lt_of_mem_children ‹_›

theorem walkFrom_eq (depth : Nat) (node : Node) :
    node.walkFrom depth = (depth, node) :: node.children.flatMap (·.walkFrom (depth + 1)) := by
  rw [walkFrom]
  simp [List.flatMap_subtype]

def walk (node : Node) : List Node := (node.walkFrom 0).map (·.2)

/-- What a visit to a node reports: that it is entered, or that it is left. -/
inductive Visit where
  | enter (node : Node)
  | leave (node : Node)
  deriving Repr, Inhabited

/-- The visits to a node and everything below it, passing over the children of
the nodes that `opens` refuses. -/
def visits (opens : Node → Bool) (node : Node) : List Visit :=
  .enter node ::
    (if opens node then
      node.children.attach.flatMap fun ⟨child, _⟩ => child.visits opens
    else []) ++
    [.leave node]
termination_by node.size
decreasing_by exact size_lt_of_mem_children ‹_›

end Node

end PayFormula
