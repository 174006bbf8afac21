import PayFormula.Evaluate
import PayFormula.Proofs.Tree.Walk

/-!
# The uses of names during evaluation

Evaluation meets the identifier expressions of a program one after another, each
with the variables declared by then. Only a binding adds a variable, after its
value: so the bindings in whose values an identifier stands are still pending
when it is met.

Evaluation visits the children of every node in order. This is stated once, for
all kinds of nodes, and inductions over the tree use only that.
-/
namespace PayFormula

/-- An identifier expression as evaluation meets it. -/
structure Use where
  ident : Ident
  /-- The variables declared by then. -/
  declared : List Variable
  /-- The bindings in whose values the identifier stands, outermost first. -/
  pending : List Binding

/-- The variable that evaluation finds for the identifier. -/
def Use.found? (u : Use) : Option Variable :=
  match (Evaluate.expr (.ident u.ident) u.declared).1 with
  | .variable v => some v
  | _ => none

theorem Use.found?_eq (u : Use) : u.found? = Evaluate.latest? u.ident.name u.declared := by
  rw [found?, Evaluate.expr]
  cases Evaluate.latest? u.ident.name u.declared <;> rfl

namespace Evaluate

mutual

/-- The uses within an expression, in the order of evaluation. -/
def uses : Expr → List Binding → List Variable → List Use
  | .ident i, pending, declared => [⟨i, declared, pending⟩]
  | .paren _ ⟨bindings, value⟩ _, pending, declared =>
    usesOfAll bindings pending declared ++ uses value pending (all bindings declared)
  | .block ⟨bindings, value⟩, pending, declared =>
    usesOfAll bindings pending declared ++ uses value pending (all bindings declared)
  | .call _ _ args _, pending, declared => usesOfExprs args pending declared
  | .macroCall _ _ _ args _ _, pending, declared => usesOfExprs args pending declared
  | .unary _ _ operand, pending, declared => uses operand pending declared
  | .binary _ left _ right, pending, declared =>
    uses left pending declared ++ uses right pending (expr left declared).2
  | .overClause _ context _, pending, declared => uses context pending declared
  | .filter _ condition, pending, declared => uses condition pending declared
  | .orderBy _ _ key _, pending, declared => uses key pending declared
  | .member _ left _, pending, declared => uses left pending declared
  | _, _, _ => []

def usesOfExprs : List Expr → List Binding → List Variable → List Use
  | [], _, _ => []
  | e :: es, pending, declared =>
    uses e pending declared ++ usesOfExprs es pending (expr e declared).2

def usesOfAll : List (BindingOf Expr) → List Binding → List Variable → List Use
  | [], _, _ => []
  | ⟨t, name, value, semicolon⟩ :: bindings, pending, declared =>
    uses value (pending ++ [⟨t, name, value, semicolon⟩]) declared ++
      usesOfAll bindings pending (all [⟨t, name, value, semicolon⟩] declared)

end

def usesOfStatements : List Statement → List Binding → List Variable → List Use
  | [], _, _ => []
  | .expression e :: statements, pending, declared =>
    uses e pending declared ++ usesOfStatements statements pending (expr e declared).2
  | .binding b :: statements, pending, declared =>
    uses b.value (pending ++ [b]) declared ++
      usesOfStatements statements pending (binding b declared).2
  | .lineComment _ :: statements, pending, declared => usesOfStatements statements pending declared
  | .blockComment _ :: statements, pending, declared => usesOfStatements statements pending declared

end Evaluate

/-- The uses within a program, in the order of evaluation. -/
def Program.uses (p : Program) : List Use := Evaluate.usesOfStatements p.statements [] []

namespace Node

/-- The variables declared by the end of a node. -/
def declare : Node → List Variable → List Variable
  | .program p, declared => (p.statements.foldl Evaluation.ofStatement ⟨none, declared⟩).declared
  | .binding b, declared => (Evaluate.binding b declared).2
  | .block b, declared => (Evaluate.expr b.value (Evaluate.all b.bindings declared)).2
  | .expr e, declared => (Evaluate.expr e declared).2
  | _, declared => declared

def uses : Node → List Binding → List Variable → List Use
  | .program p, pending, declared => Evaluate.usesOfStatements p.statements pending declared
  | .binding b, pending, declared => Evaluate.uses b.value (pending ++ [b]) declared
  | .block b, pending, declared =>
    Evaluate.usesOfAll b.bindings pending declared ++
      Evaluate.uses b.value pending (Evaluate.all b.bindings declared)
  | .expr e, pending, declared => Evaluate.uses e pending declared
  | _, _, _ => []

/-- The variables declared by the end of nodes that are visited in order. -/
def declareAll : List Node → List Variable → List Variable
  | [], declared => declared
  | node :: nodes, declared => declareAll nodes (node.declare declared)

def usesAll : List Node → List Binding → List Variable → List Use
  | [], _, _ => []
  | node :: nodes, pending, declared =>
    node.uses pending declared ++ usesAll nodes pending (node.declare declared)

section Visit

variable (pending : List Binding) (declared : List Variable)

theorem declareAll_append (front back : List Node) :
    declareAll (front ++ back) declared = declareAll back (declareAll front declared) := by
  induction front generalizing declared with
  | nil => rfl
  | cons node front ih => exact ih (node.declare declared)

theorem usesAll_append (front back : List Node) :
    usesAll (front ++ back) pending declared =
      usesAll front pending declared ++ usesAll back pending (declareAll front declared) := by
  induction front generalizing declared with
  | nil => rfl
  | cons node front ih =>
    rw [List.cons_append, usesAll, usesAll, ih (node.declare declared), List.append_assoc]
    rfl

theorem visit_exprs (args : List Expr) :
    Evaluate.usesOfExprs args pending declared = usesAll (args.map .expr) pending declared ∧
      Evaluate.exprs args declared = declareAll (args.map .expr) declared := by
  induction args generalizing declared with
  | nil => exact ⟨rfl, rfl⟩
  | cons e args ih =>
    obtain ⟨huses, hdeclare⟩ := ih (Evaluate.expr e declared).2
    rw [Evaluate.usesOfExprs, Evaluate.exprs, huses, hdeclare]
    exact ⟨rfl, rfl⟩

theorem visit_bindings (bindings : List Binding) :
    Evaluate.usesOfAll bindings pending declared =
        usesAll (bindings.map .binding) pending declared ∧
      Evaluate.all bindings declared = declareAll (bindings.map .binding) declared := by
  induction bindings generalizing declared with
  | nil => exact ⟨rfl, rfl⟩
  | cons b bindings ih =>
    obtain ⟨t, name, value, semicolon⟩ := b
    obtain ⟨huses, hdeclare⟩ := ih ((Node.binding ⟨t, name, value, semicolon⟩).declare declared)
    constructor
    · rw [List.map_cons, usesAll, ← huses]
      rfl
    · rw [List.map_cons, declareAll, ← hdeclare]
      rfl

theorem visit_block (b : Block) :
    Evaluate.usesOfAll b.bindings pending declared ++
        Evaluate.uses b.value pending (Evaluate.all b.bindings declared) =
      usesAll b.children pending declared ∧
    (Evaluate.expr b.value (Evaluate.all b.bindings declared)).2 =
      declareAll b.children declared := by
  obtain ⟨huses, hdeclare⟩ := visit_bindings pending declared b.bindings
  rw [BlockOf.children, usesAll_append, declareAll_append, huses, hdeclare]
  refine ⟨?_, rfl⟩
  congr 1
  exact (List.append_nil _).symm

theorem visit_statements (statements : List Statement) (value : Option Object) :
    Evaluate.usesOfStatements statements pending declared =
        usesAll (statements.map Statement.node) pending declared ∧
      (statements.foldl Evaluation.ofStatement ⟨value, declared⟩).declared =
        declareAll (statements.map Statement.node) declared := by
  induction statements generalizing declared value with
  | nil => exact ⟨rfl, rfl⟩
  | cons s statements ih =>
    cases s with
    | expression e =>
      obtain ⟨huses, hdeclare⟩ :=
        ih (Evaluate.expr e declared).2 (some (Evaluate.expr e declared).1)
      refine ⟨?_, hdeclare⟩
      rw [Evaluate.usesOfStatements, huses]
      rfl
    | binding b =>
      obtain ⟨huses, hdeclare⟩ :=
        ih (Evaluate.binding b declared).2 (some (.variable (Evaluate.binding b declared).1))
      refine ⟨?_, hdeclare⟩
      rw [Evaluate.usesOfStatements, huses]
      rfl
    | lineComment | blockComment => exact ih declared value

theorem visit_strings (strings : List StringLiteral) :
    usesAll (strings.map .string) pending declared = [] ∧
      declareAll (strings.map .string) declared = declared := by
  induction strings with
  | nil => exact ⟨rfl, rfl⟩
  | cons s strings ih => exact ih

/-- Evaluation visits the children of a node in order, unless the node is an identifier
expression or a binding. -/
theorem visit (node : Node) : (∃ i, node = .expr (.ident i)) ∨ (∃ b, node = .binding b) ∨
    ∀ pending declared, node.uses pending declared = usesAll node.children pending declared ∧
      node.declare declared = declareAll node.children declared := by
  cases node with
  | binding b => exact .inr (.inl ⟨b, rfl⟩)
  | program p => exact .inr (.inr fun _ _ => visit_statements _ _ p.statements none)
  | block b => exact .inr (.inr fun _ _ => visit_block _ _ b)
  | list l =>
    refine .inr (.inr fun pending declared => ?_)
    obtain ⟨huses, hdeclare⟩ := visit_strings pending declared l.strings
    exact ⟨huses.symm, hdeclare.symm⟩
  | comment | ident | label | set | string => exact .inr (.inr fun _ _ => ⟨rfl, rfl⟩)
  | expr e =>
    cases e with
    | ident i => exact .inl ⟨i, rfl⟩
    | paren | unary | filter | orderBy =>
      exact .inr (.inr fun _ _ => ⟨(List.append_nil _).symm, rfl⟩)
    | block b => exact .inr (.inr fun _ _ => visit_block _ _ b)
    | call t l args r => exact .inr (.inr fun _ _ => visit_exprs _ _ args)
    | macroCall d n l args r c => exact .inr (.inr fun _ _ => visit_exprs _ _ args)
    | binary t left op right =>
      refine .inr (.inr fun pending declared => ⟨?_, rfl⟩)
      change Evaluate.uses left pending declared ++ _ = Evaluate.uses left pending declared ++ _
      exact congrArg (_ ++ ·) (List.append_nil _).symm
    | overClause t context aliased =>
      cases aliased <;> exact .inr (.inr fun _ _ => ⟨(List.append_nil _).symm, rfl⟩)
    | member t left collection =>
      cases collection <;> exact .inr (.inr fun _ _ => ⟨(List.append_nil _).symm, rfl⟩)
    | list l =>
      refine .inr (.inr fun pending declared => ?_)
      obtain ⟨huses, hdeclare⟩ := visit_strings pending declared l.strings
      exact ⟨huses.symm, hdeclare.symm⟩
    | _ => exact .inr (.inr fun _ _ => ⟨rfl, rfl⟩)

end Visit

theorem declare_ident (i : Ident) (declared : List Variable) :
    (Node.expr (.ident i)).declare declared = declared := by
  rw [declare, Evaluate.expr]
  split <;> rfl

/-- The identifier that a node is as an expression. -/
def used? : Node → Option Ident
  | .expr (.ident i) => some i
  | _ => none

theorem eq_of_used? {node : Node} {i : Ident} (h : node.used? = some i) :
    node = .expr (.ident i) := by
  unfold used? at h
  split at h
  · cases h
    rfl
  · cases h

/-- Evaluation meets every identifier expression of a tree, in the order of a walk. -/
theorem map_uses (node : Node) (pending : List Binding) (declared : List Variable) :
    (node.uses pending declared).map (·.ident) = node.walk.filterMap used? := by
  induction node using Node.induction generalizing pending declared with
  | step node ih =>
    have hall (nodes : List Node) (hnodes : nodes ⊆ node.children) (pending declared) :
        (usesAll nodes pending declared).map (·.ident) =
          (nodes.flatMap walk).filterMap used? := by
      induction nodes generalizing declared with
      | nil => rfl
      | cons child nodes ih' =>
        rw [usesAll, List.map_append, List.flatMap_cons, List.filterMap_append,
          ih child (hnodes List.mem_cons_self),
          ih' (List.subset_of_cons_subset hnodes)]
    rw [walk_eq]
    rcases node.visit with ⟨i, rfl⟩ | ⟨b, rfl⟩ | hplain
    · rfl
    · have h := hall _ (List.Subset.refl _) (pending ++ [b]) declared
      rw [List.filterMap_cons, ← h]
      exact congrArg (List.map _) (List.append_nil _).symm
    · have hnone : node.used? = none := by
        cases hused : node.used? with
        | none => rfl
        | some i =>
          obtain rfl := eq_of_used? hused
          cases (hplain pending declared).1
      rw [(hplain pending declared).1, hall _ (List.Subset.refl _), List.filterMap_cons_none hnone]

end Node

theorem Program.map_uses (p : Program) :
    p.uses.map (·.ident) = (Node.program p).walk.filterMap Node.used? :=
  (Node.program p).map_uses [] []

end PayFormula
