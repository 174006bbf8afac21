import PayFormula.Syntax.Node
import PayFormula.Syntax.Printer

/-!
# Plain trees

Trees up to where their tokens stand and how keywords and operators are spelled.
Names, literals, names of builtin functions and comments keep what they were
read from; of all other tokens the kind alone remains. Two trees with one plain
tree have the same nodes, operators, names and values, and they print alike.

What stands for an argument that could not be read is kept as it is, or replaced
by something else.
-/
namespace PayFormula

/-- A token without its place. -/
def Token.unplaced (t : Token) : Token := ⟨t.kind, t.literal, .origin, .origin, 0, 0⟩

/-- A token without its place and its spelling. -/
def Token.bare (t : Token) : Token := ⟨t.kind, "", .origin, .origin, 0, 0⟩

def Ident.plain (i : Ident) : Ident := ⟨i.token.unplaced⟩

def StringLiteral.plain (s : StringLiteral) : StringLiteral := ⟨s.token.unplaced⟩

def Comment.plain (c : Comment) : Comment := ⟨c.token.unplaced⟩

def ListLiteral.plain (l : ListLiteral) : ListLiteral :=
  ⟨l.lbracket.bare, l.strings.map StringLiteral.plain, l.rbracket.bare⟩

def NameClause.plain (c : NameClause) : NameClause := ⟨c.token.bare, c.name.plain⟩

def Collection.plain : Collection → Collection
  | .list l => .list l.plain
  | .set s => .set s.plain

def OrderDirection.plain (d : OrderDirection) : OrderDirection := ⟨d.token.bare, d.direction⟩

mutual

def Expr.plain : Expr → Expr
  | .ident i => .ident i.plain
  | .number t value => .number t.unplaced value
  | .string s => .string s.plain
  | .boolean t value => .boolean t.bare value
  | .date t d => .date t.bare d
  | .time t c => .time t.bare c
  | .blank t => .blank t.bare
  | .unary t op operand => .unary t.bare op operand.plain
  | .binary t left op right => .binary t.bare left.plain op right.plain
  | .paren l ⟨bindings, value⟩ r => .paren l.bare ⟨plainBindings bindings, value.plain⟩ r.bare
  | .block ⟨bindings, value⟩ => .block ⟨plainBindings bindings, value.plain⟩
  | .macroCall dollar name l args r closing =>
    .macroCall dollar.bare name.plain l.bare (plainArgs args) r.bare closing.bare
  | .call t l args r => .call t.unplaced l.bare (plainArgs args) r.bare
  | .overClause t context aliased =>
    .overClause t.bare context.plain (aliased.map NameClause.plain)
  | .filter t condition => .filter t.bare condition.plain
  | .orderBy t byToken key direction =>
    .orderBy t.bare byToken.bare key.plain (direction.map OrderDirection.plain)
  | .label clause => .label clause.plain
  | .set clause => .set clause.plain
  | .list l => .list l.plain
  | .member t left collection => .member t.bare left.plain collection.plain
  | .failed e tokens => .failed e tokens

def plainArgs : List Expr → List Expr
  | [] => []
  | arg :: args => arg.plain :: plainArgs args

def plainBindings : List (BindingOf Expr) → List (BindingOf Expr)
  | [] => []
  | ⟨t, name, value, semicolon⟩ :: bindings =>
    ⟨t.bare, name.plain, value.plain, semicolon.bare⟩ :: plainBindings bindings

end

def BindingOf.plain (b : Binding) : Binding :=
  ⟨b.token.bare, b.name.plain, b.value.plain, b.semicolon.bare⟩

def BlockOf.plain (b : Block) : Block := ⟨plainBindings b.bindings, b.value.plain⟩

def Statement.plain : Statement → Statement
  | .expression e => .expression e.plain
  | .binding b => .binding b.plain
  | .lineComment c => .lineComment c.plain
  | .blockComment c => .blockComment c.plain

section With

variable (f : SyntaxError → List Token → Expr)

mutual

/-- The plain tree with something else in place of what could not be read. -/
def Expr.plainWith : Expr → Expr
  | .unary t op operand => .unary t.bare op operand.plainWith
  | .binary t left op right => .binary t.bare left.plainWith op right.plainWith
  | .paren l ⟨bindings, value⟩ r =>
    .paren l.bare ⟨plainBindingsWith bindings, value.plainWith⟩ r.bare
  | .block ⟨bindings, value⟩ => .block ⟨plainBindingsWith bindings, value.plainWith⟩
  | .macroCall dollar name l args r closing =>
    .macroCall dollar.bare name.plain l.bare (plainArgsWith args) r.bare closing.bare
  | .call t l args r => .call t.unplaced l.bare (plainArgsWith args) r.bare
  | .overClause t context aliased =>
    .overClause t.bare context.plainWith (aliased.map NameClause.plain)
  | .filter t condition => .filter t.bare condition.plainWith
  | .orderBy t byToken key direction =>
    .orderBy t.bare byToken.bare key.plainWith (direction.map OrderDirection.plain)
  | .member t left collection => .member t.bare left.plainWith collection.plain
  | .failed e tokens => f e tokens
  | e => e.plain

def plainArgsWith : List Expr → List Expr
  | [] => []
  | arg :: args => arg.plainWith :: plainArgsWith args

def plainBindingsWith : List (BindingOf Expr) → List (BindingOf Expr)
  | [] => []
  | ⟨t, name, value, semicolon⟩ :: bindings =>
    ⟨t.bare, name.plain, value.plainWith, semicolon.bare⟩ :: plainBindingsWith bindings

end

def BindingOf.plainWith (b : Binding) : Binding :=
  ⟨b.token.bare, b.name.plain, b.value.plainWith f, b.semicolon.bare⟩

def BlockOf.plainWith (b : Block) : Block := ⟨plainBindingsWith f b.bindings, b.value.plainWith f⟩

def Statement.plainWith : Statement → Statement
  | .expression e => .expression (e.plainWith f)
  | .binding b => .binding (b.plainWith f)
  | .lineComment c => .lineComment c.plain
  | .blockComment c => .blockComment c.plain

end With

theorem Token.unplaced_congr {t t' : Token} (hk : t'.kind = t.kind)
    (hl : t'.literal = t.literal) : t'.unplaced = t.unplaced := by
  simp only [unplaced, hk, hl]

theorem Token.bare_congr {t t' : Token} (hk : t'.kind = t.kind) : t'.bare = t.bare := by
  simp only [bare, hk]

theorem ListLiteral.render_plain (l : ListLiteral) : l.plain.render = l.render := by
  simp only [render, plain, List.map_map]
  rfl

theorem Collection.render_plain (c : Collection) : c.plain.render = c.render := by
  cases c with
  | list l => exact l.render_plain
  | set s => rfl

section With

mutual

/-- Nothing else in place of anything. -/
theorem Expr.plainWith_failed : (e : Expr) → e.plainWith .failed = e.plain
  | .ident _ | .number .. | .string _ | .boolean .. | .date .. | .time .. | .blank _ | .label _
  | .set _ | .list _ | .failed .. => by simp only [Expr.plain, Expr.plainWith]
  | .unary _ _ operand => by rw [Expr.plain, Expr.plainWith, operand.plainWith_failed]
  | .binary _ left _ right => by
    rw [Expr.plain, Expr.plainWith, left.plainWith_failed, right.plainWith_failed]
  | .paren _ ⟨bindings, value⟩ _ => by
    rw [Expr.plain, Expr.plainWith, plainBindingsWith_failed bindings, value.plainWith_failed]
  | .block ⟨bindings, value⟩ => by
    rw [Expr.plain, Expr.plainWith, plainBindingsWith_failed bindings, value.plainWith_failed]
  | .macroCall _ _ _ args _ _ => by rw [Expr.plain, Expr.plainWith, plainArgsWith_failed args]
  | .call _ _ args _ => by rw [Expr.plain, Expr.plainWith, plainArgsWith_failed args]
  | .overClause _ context _ => by rw [Expr.plain, Expr.plainWith, context.plainWith_failed]
  | .filter _ condition => by rw [Expr.plain, Expr.plainWith, condition.plainWith_failed]
  | .orderBy _ _ key _ => by rw [Expr.plain, Expr.plainWith, key.plainWith_failed]
  | .member _ left _ => by rw [Expr.plain, Expr.plainWith, left.plainWith_failed]

theorem plainArgsWith_failed : (args : List Expr) → plainArgsWith .failed args = plainArgs args
  | [] => rfl
  | arg :: args => by
    rw [plainArgs, plainArgsWith, arg.plainWith_failed, plainArgsWith_failed args]

theorem plainBindingsWith_failed :
    (bindings : List Binding) → plainBindingsWith .failed bindings = plainBindings bindings
  | [] => rfl
  | ⟨_, _, value, _⟩ :: bindings => by
    rw [plainBindings, plainBindingsWith, value.plainWith_failed,
      plainBindingsWith_failed bindings]

end

theorem Statement.plainWith_failed (s : Statement) : s.plainWith .failed = s.plain := by
  cases s with
  | expression e => exact congrArg Statement.expression e.plainWith_failed
  | binding b =>
    refine congrArg Statement.binding ?_
    rw [BindingOf.plainWith, BindingOf.plain, b.value.plainWith_failed]
  | lineComment | blockComment => rfl

variable {f : SyntaxError → List Token → Expr}

mutual

theorem Expr.render_plainWith
    (hf : ∀ e tokens, (f e tokens).render = (Expr.failed e tokens).render) :
    (e : Expr) → (e.plainWith f).render = e.render
  | .ident _ | .number .. | .string _ | .boolean .. | .date .. | .time .. | .blank _ | .label _
  | .set _ => by simp only [Expr.plainWith, Expr.plain]; rfl
  | .failed e tokens => by rw [Expr.plainWith, hf]
  | .unary _ op operand => by
    rw [Expr.plainWith, Expr.render, operand.render_plainWith hf, Expr.render]
  | .binary _ left op right => by
    rw [Expr.plainWith, Expr.render, left.render_plainWith hf, right.render_plainWith hf,
      Expr.render]
  | .paren _ ⟨bindings, value⟩ _ => by
    rw [Expr.plainWith, Expr.render, renderBindings_plainWith hf bindings,
      value.render_plainWith hf, Expr.render]
  | .block ⟨bindings, value⟩ => by
    rw [Expr.plainWith, Expr.render, renderBindings_plainWith hf bindings,
      value.render_plainWith hf, Expr.render]
  | .macroCall _ name _ args _ _ => by
    rw [Expr.plainWith, Expr.render, renderArgs_plainWith hf args, Expr.render]
    rfl
  | .call t _ args _ => by
    rw [Expr.plainWith, Expr.render, renderArgs_plainWith hf args, Expr.render]
    rfl
  | .overClause _ context none => by
    rw [Expr.plainWith, Option.map, Expr.render, context.render_plainWith hf, Expr.render]
  | .overClause _ context (some clause) => by
    rw [Expr.plainWith, Option.map, Expr.render, context.render_plainWith hf, Expr.render]
    rfl
  | .filter _ condition => by
    rw [Expr.plainWith, Expr.render, condition.render_plainWith hf, Expr.render]
  | .orderBy _ _ key none => by
    rw [Expr.plainWith, Option.map, Expr.render, key.render_plainWith hf, Expr.render]
  | .orderBy _ _ key (some direction) => by
    rw [Expr.plainWith, Option.map, Expr.render, key.render_plainWith hf, Expr.render]
    rfl
  | .list l => by
    simp only [Expr.plainWith, Expr.plain]
    rw [Expr.render, l.render_plain, Expr.render]
  | .member _ left collection => by
    rw [Expr.plainWith, Expr.render, left.render_plainWith hf, collection.render_plain, Expr.render]

theorem renderArgs_plainWith
    (hf : ∀ e tokens, (f e tokens).render = (Expr.failed e tokens).render) :
    (args : List Expr) → renderArgs (plainArgsWith f args) = renderArgs args
  | [] => rfl
  | arg :: args => by
    rw [plainArgsWith, renderArgs, arg.render_plainWith hf, renderArgs_plainWith hf args,
      renderArgs]

theorem renderBindings_plainWith
    (hf : ∀ e tokens, (f e tokens).render = (Expr.failed e tokens).render) :
    (bindings : List Binding) →
    renderBindings (plainBindingsWith f bindings) = renderBindings bindings
  | [] => rfl
  | ⟨_, name, value, _⟩ :: bindings => by
    rw [plainBindingsWith, renderBindings, value.render_plainWith hf,
      renderBindings_plainWith hf bindings, renderBindings]
    rfl

end

variable (hf : ∀ e tokens, (f e tokens).render = (Expr.failed e tokens).render)
include hf

theorem Statement.render_plainWith (s : Statement) : (s.plainWith f).render = s.render := by
  cases s with
  | expression e => exact e.render_plainWith hf
  | binding b =>
    simp only [plainWith, render, BindingOf.render, BindingOf.plainWith,
      b.value.render_plainWith hf]
    rfl
  | lineComment c | blockComment c => rfl

/-- A program prints as its plain statements do. -/
theorem Program.renderStatements_plainWith (ss : List Statement) :
    renderStatements (ss.map (Statement.plainWith f)) = renderStatements ss := by
  fun_induction renderStatements ss with
  | case1 => rfl
  | case2 last => exact congrArg (· :: []) (last.render_plainWith hf)
  | case3 e ss hne ih =>
    cases ss with
    | nil => exact absurd rfl hne
    | cons s ss =>
      rw [← ih]
      exact congrArg (fun text => (text ++ ";") :: _) (e.render_plainWith hf)
  | case4 s ss hne hexpr ih =>
    cases ss with
    | nil => exact absurd rfl hne
    | cons s' ss =>
      rw [← ih]
      cases s with
      | expression e => exact absurd rfl (hexpr e)
      | binding | lineComment | blockComment =>
        exact congrArg (· :: _) (Statement.render_plainWith hf _)

end With

theorem Expr.render_plain (e : Expr) : e.plain.render = e.render := by
  rw [← e.plainWith_failed]
  exact e.render_plainWith fun _ _ => rfl

theorem plainArgs_eq_map (args : List Expr) : plainArgs args = args.map Expr.plain := by
  induction args with
  | nil => rfl
  | cons arg args ih => rw [plainArgs, ih, List.map_cons]

theorem plainBindings_eq_map (bindings : List Binding) :
    plainBindings bindings = bindings.map BindingOf.plain := by
  induction bindings with
  | nil => rfl
  | cons b bindings ih =>
    obtain ⟨t, name, value, semicolon⟩ := b
    rw [plainBindings, ih, List.map_cons, BindingOf.plain]

namespace Node

def plain : Node → Node
  | .program p => .program ⟨p.statements.map Statement.plain, p.span⟩
  | .binding b => .binding b.plain
  | .comment c => .comment c.plain
  | .expr e => .expr e.plain
  | .block b => .block b.plain
  | .ident i => .ident i.plain
  | .label c => .label c.plain
  | .set c => .set c.plain
  | .list l => .list l.plain
  | .string s => .string s.plain

theorem block_children_plain (b : Block) : b.plain.children = b.children.map plain := by
  simp only [BlockOf.plain, BlockOf.children, plainBindings_eq_map, List.map_append, List.map_map]
  rfl

theorem args_children_plain (args : List Expr) :
    (plainArgs args).map Node.expr = (args.map Node.expr).map plain := by
  rw [plainArgs_eq_map, List.map_map, List.map_map]
  rfl

theorem strings_children_plain (l : ListLiteral) :
    l.plain.strings.map Node.string = (l.strings.map Node.string).map plain := by
  rw [ListLiteral.plain, List.map_map, List.map_map]
  rfl

theorem expr_children_plain (e : Expr) : e.plain.children = e.children.map plain := by
  cases e with
  | paren l inner r =>
    obtain ⟨bindings, value⟩ := inner
    simp only [Expr.plain, Expr.children]
    rfl
  | block b =>
    obtain ⟨bindings, value⟩ := b
    simp only [Expr.plain, Expr.children]
    exact block_children_plain ⟨bindings, value⟩
  | macroCall dollar name l args r closing =>
    simp only [Expr.plain, Expr.children, List.map_cons, args_children_plain]
    rfl
  | call t l args r =>
    simp only [Expr.plain, Expr.children]
    exact args_children_plain args
  | overClause t context aliased =>
    simp only [Expr.plain, Expr.children]
    cases aliased <;> rfl
  | list l =>
    simp only [Expr.plain, Expr.children]
    exact strings_children_plain l
  | member t left collection =>
    simp only [Expr.plain, Expr.children]
    cases collection <;> rfl
  | _ =>
    simp only [Expr.plain, Expr.children]
    rfl

/-- What is below a plain node are the plain nodes below it. -/
theorem children_plain (node : Node) : node.plain.children = node.children.map plain := by
  cases node with
  | program p =>
    simp only [plain, children, List.map_map]
    refine List.map_congr_left fun s _ => ?_
    cases s <;> rfl
  | expr e => exact expr_children_plain e
  | block b => exact block_children_plain b
  | list l => exact strings_children_plain l
  | binding | comment | ident | label | set | string => rfl

end Node

end PayFormula
