import Mathlib.Tactic.Ring
import PayFormula.Proofs.Grammar.Program
import PayFormula.Proofs.Tree.Depth

/-!
# The depth of phrases

Levels of nesting bound what stands inside of what is read, but for the free
expressions. As many operators can be chained onto an operand as there are levels
left behind it, and again within the operand: so the bound on all expressions is
quadratic in the levels.
-/
namespace PayFormula

namespace Grammar

/-- The most expressions, free ones included, that stand one inside the other with a number of
levels of nesting. -/
def mostExprs : Nat → Nat
  | 0 => 0
  | levels + 1 => mostExprs levels + 2 + levels

theorem mostExprs_mono {m n : Nat} (h : m ≤ n) : mostExprs m ≤ mostExprs n := by
  induction h with
  | refl => exact Nat.le_refl _
  | @step n _ ih =>
    rw [mostExprs]
    omega

theorem mostExprs_eq (levels : Nat) : mostExprs levels = levels * (levels + 3) / 2 := by
  have htwice : levels * (levels + 3) = 2 * mostExprs levels := by
    induction levels with
    | zero => rfl
    | succ levels ih =>
      calc
        (levels + 1) * (levels + 1 + 3) = levels * (levels + 3) + 2 * (2 + levels) := by ring
        _ = 2 * mostExprs (levels + 1) := by
          rw [ih, mostExprs]
          omega
  rw [htwice, Nat.mul_div_cancel_left _ Nat.two_pos]

variable {lax : Prop} {gap : Phrase SyntaxError} {gaps : Gaps}

theorem items_deepBelow {levels total : Nat} {item : Phrase Expr} {toks : List Token}
    {stop : Token} {as : List Expr}
    (hitem : ∀ {toks stop a}, item toks stop a → (Node.expr a).DeepBelow levels total)
    (h : Items item toks stop as) : ∀ child ∈ as.map Node.expr, child.DeepBelow levels total := by
  induction h with
  | last ha =>
    intro child hchild
    rw [List.mem_singleton.mp hchild]
    exact hitem ha
  | cons ha _ _ ih =>
    intro child hchild
    rcases List.mem_cons.mp hchild with rfl | hchild
    · exact hitem ha
    · exact ih child hchild

theorem strings_deepBelow {levels total : Nat} (strings : List StringLiteral) :
    ∀ child ∈ strings.map Node.string, child.DeepBelow levels total := by
  intro child hchild
  obtain ⟨s, -, rfl⟩ := List.mem_map.mp hchild
  exact (Node.deep_of_leaf rfl rfl).below

section Sub

/-- Every expression of a grammar is no deeper than some bounds. -/
def SubDeep (sub : SubPhrase) (levels total : Nat) : Prop :=
  ∀ {power : Precedence} {toks : List Token} {next : Token} {e : Expr},
    sub power toks next e → (Node.expr e).Deep levels total

variable {sub : SubPhrase} {levels total : Nat} (hsub : SubDeep sub levels total)
include hsub

theorem bound_deep {toks : List Token} {b : Binding} (h : Bound sub toks b) :
    (Node.binding b).Deep levels total := by
  cases h with
  | intro _ _ _ hv _ =>
    refine Node.deep_of_not_isExpr rfl ?_
    intro child hchild
    rcases List.mem_cons.mp hchild with rfl | hchild
    · exact (Node.deep_of_leaf rfl rfl).below
    · rw [List.mem_singleton.mp hchild]
      exact (hsub hv).below

theorem bounds_deep {toks : List Token} {bs : List Binding} (h : Bounds sub toks bs) :
    ∀ child ∈ bs.map Node.binding, child.Deep levels total := by
  induction h with
  | nil =>
    intro child hchild
    cases hchild
  | cons hb _ ih =>
    intro child hchild
    rcases List.mem_cons.mp hchild with rfl | hchild
    · exact bound_deep hsub hb
    · exact ih child hchild

theorem block_children_deep {toks : List Token} {next : Token} {b : Block}
    (h : Blocks sub toks next b) : ∀ child ∈ b.children, child.Deep levels total := by
  cases h with
  | intro hbs hv =>
    intro child hchild
    rcases List.mem_append.mp hchild with hchild | hchild
    · exact bounds_deep hsub hbs child hchild
    · rw [List.mem_singleton.mp hchild]
      exact hsub hv

theorem argument_deepBelow {toks : List Token} {stop : Token} {e : Expr}
    (h : Argument gap sub toks stop e) : (Node.expr e).DeepBelow levels (total + 1) := by
  cases h with
  | value hv => exact (hsub hv).below.mono (Nat.le_refl _) (Nat.le_succ _)
  | block hb _ =>
    refine Node.deepBelow_of_isFree rfl (Node.deep_of_isExpr rfl ?_)
    exact fun child hchild => (block_children_deep hsub hb child hchild).below
  | failed =>
    refine Node.deepBelow_of_isFree rfl (Node.deep_of_isExpr rfl ?_)
    intro child hchild
    cases hchild

theorem primary_deep {toks : List Token} {next : Token} {e : Expr}
    (h : Primary gap sub toks next e) : (Node.expr e).Deep (levels + 1) (total + 2) := by
  have hbelow {e : Expr} (he : (Node.expr e).Deep levels total) :
      (Node.expr e).DeepBelow levels (total + 1) :=
    he.below.mono (Nat.le_refl _) (Nat.le_succ _)
  have hleaf {node : Node} (hn : node.isExpr = false) (hc : node.children = []) :
      node.DeepBelow levels (total + 1) := (Node.deep_of_leaf hn hc).below
  refine Node.deep_of_isExpr rfl ?_
  intro child hchild
  cases h with
  | number | ident | string | boolean | date | time | callUnit => cases hchild
  | unary _ he | overClause _ he _ | filter _ he | orderBy _ _ he _ _
  | orderByDirection _ _ he _ =>
    rw [List.mem_singleton.mp hchild]
    exact hbelow (hsub he)
  | unit =>
    rw [List.mem_singleton.mp hchild]
    refine (Node.deep_of_not_isExpr rfl ?_).below
    intro blank hblank
    rw [List.mem_singleton.mp hblank]
    refine Node.deepBelow_of_isFree rfl (Node.deep_of_isExpr rfl ?_)
    intro below hb
    cases hb
  | paren _ hb _ =>
    rw [List.mem_singleton.mp hchild]
    refine (Node.deep_of_not_isExpr rfl ?_).below
    intro below hbelow
    exact (block_children_deep hsub hb below hbelow).below.mono (Nat.le_refl _) (Nat.le_succ _)
  | macroUnit =>
    rw [List.mem_singleton.mp hchild]
    exact hleaf rfl rfl
  | macroCall _ _ _ hargs _ _ =>
    rcases List.mem_cons.mp hchild with rfl | hchild
    · exact hleaf rfl rfl
    · exact items_deepBelow (fun ha => hbelow (hsub ha)) hargs child hchild
  | call _ _ _ hargs _ => exact items_deepBelow (argument_deepBelow hsub) hargs child hchild
  | overAlias _ he _ _ =>
    rcases List.mem_cons.mp hchild with rfl | hchild
    · exact hbelow (hsub he)
    · rw [List.mem_singleton.mp hchild]
      refine (Node.deep_of_not_isExpr rfl ?_).below
      intro name hname
      rw [List.mem_singleton.mp hname]
      exact hleaf rfl rfl
  | label | set =>
    rw [List.mem_singleton.mp hchild]
    exact hleaf rfl rfl
  | @list _ _ l _ => exact strings_deepBelow l.strings child hchild

/-- An operator is as deep as its left operand, but for one expression more. -/
theorem operation_deep {power : Precedence} {left e : Expr} {toks : List Token} {next : Token}
    {levels' total' : Nat} (h : Operation sub power left toks next e)
    (hl : (Node.expr left).Deep levels' total') (hlevels : levels < levels')
    (htotal : total ≤ total') : (Node.expr e).Deep levels' (total' + 1) := by
  cases h with
  | binary _ _ hr =>
    exact Node.deep_of_isOperation rfl rfl rfl hl ((hsub hr).mono (Nat.le_refl _) htotal) hlevels
  | @memberList _ _ _ l _ _ _ =>
    have hlist : (Node.list l).Deep levels total' :=
      Node.deep_of_not_isExpr rfl (strings_deepBelow l.strings)
    exact Node.deep_of_isOperation rfl rfl rfl hl hlist hlevels
  | @memberSet _ _ _ clause _ _ _ =>
    have hset : (Node.set clause).Deep levels total' := by
      refine Node.deep_of_not_isExpr rfl ?_
      intro child hchild
      rw [List.mem_singleton.mp hchild]
      exact (Node.deep_of_leaf rfl rfl).below
    exact Node.deep_of_isOperation rfl rfl rfl hl hset hlevels

end Sub

/-- Each operator that is chained takes one of the levels left and adds one expression. -/
theorem chain_deep {n levels total : Nat} {power : Precedence} {left e : Expr} {toks : List Token}
    {next : Token} (hsub : ∀ k < n, SubDeep (Expression gaps k) k (mostExprs k))
    (h : Chain gaps n power left toks next e) (hl : (Node.expr left).Deep levels total)
    (hlevels : n < levels) (htotal : mostExprs n ≤ total) :
    (Node.expr e).Deep levels (total + n) := by
  induction n generalizing left toks total with
  | zero =>
    cases h
    exact hl
  | succ n ih =>
    rcases h with h | h
    · cases h
      exact hl.mono (Nat.le_refl _) (Nat.le_add_right _ _)
    · cases h with
      | intro hop hrest =>
        have hle : mostExprs n ≤ mostExprs (n + 1) := mostExprs_mono n.le_succ
        have hdeep := operation_deep (hsub n n.lt_succ_self) hop hl (by omega) (by omega)
        have hall := ih (fun k hk => hsub k (by omega)) hrest hdeep (by omega) (by omega)
        rwa [show total + (n + 1) = total + 1 + n by omega]

theorem expression_deep (levels : Nat) :
    SubDeep (Expression gaps levels) levels (mostExprs levels) := by
  induction levels using Nat.strong_induction_on with
  | _ levels ih =>
    intro power toks next e h
    cases levels with
    | zero => exact h.elim
    | succ levels =>
      cases h with
      | intro hp hc =>
        have hleft := primary_deep (ih levels levels.lt_succ_self) hp
        exact chain_deep (fun k hk => ih k (by omega)) hc hleft levels.lt_succ_self (by omega)

theorem lines_deep {eof : Token} {tokens : List Token} {ss : List Statement}
    (h : Lines lax gaps eof tokens ss) : ∀ child ∈ ss.map Statement.node,
      child.Deep nestingLimit (mostExprs nestingLimit) := by
  have hcons {node : Node} {nodes : List Node}
      (hn : node.Deep nestingLimit (mostExprs nestingLimit))
      (hns : ∀ child ∈ nodes, child.Deep nestingLimit (mostExprs nestingLimit)) :
      ∀ child ∈ node :: nodes, child.Deep nestingLimit (mostExprs nestingLimit) := by
    intro child hchild
    rcases List.mem_cons.mp hchild with rfl | hchild
    · exact hn
    · exact hns child hchild
  induction h with
  | nil =>
    intro child hchild
    cases hchild
  | skip _ _ ih => exact ih
  | lineComment _ _ ih | blockComment _ _ ih => exact hcons (Node.deep_of_leaf rfl rfl) ih
  | binding _ hb _ ih => exact hcons (bound_deep (expression_deep _) hb) ih
  | expression _ he _ ih | ended _ he _ _ _ ih => exact hcons (expression_deep _ he) ih

end Grammar

open Grammar

/-- No tree that is handed out is deeper than the levels of nesting allow. -/
theorem parse_deep (source : String) :
    (Node.program (parse source).program).Deep nestingLimit (mostExprs nestingLimit) :=
  Node.deep_of_not_isExpr rfl fun child hchild =>
    (lines_deep (parse_lines source) child hchild).below

end PayFormula
