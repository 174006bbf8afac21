import PayFormula.Proofs.Grammar.Program
import PayFormula.Proofs.Tree.Depth
import PayFormula.Proofs.Tree.Walk

/-!
# What holds of every expression

A property of all the expressions of a tree passes through the rules of the
grammar: if the expressions that a rule takes have it throughout, so has all
that stands below what the rule makes of them. Only the expressions that the
rules make on the way, which are the free ones, have to be looked at.

The property may speak of the tokens among which an expression stands, if it
stays true among more of them.
-/
namespace PayFormula

namespace Node

/-- The node itself, if it is an expression, and all expressions below it have a property. -/
def EveryExpr (P : Expr → Prop) (node : Node) : Prop := ∀ e, .expr e ∈ node.walk → P e

variable {P : Expr → Prop}

theorem everyExpr_iff {node : Node} : node.EveryExpr P ↔
    (∀ e, node = .expr e → P e) ∧ ∀ child ∈ node.children, child.EveryExpr P := by
  constructor
  · intro h
    constructor
    · rintro e rfl
      refine h e ?_
      rw [walk_eq]
      exact List.mem_cons_self
    · intro child hchild e he
      refine h e ?_
      rw [walk_eq]
      exact List.mem_cons_of_mem _ (List.mem_flatMap.mpr ⟨child, hchild, he⟩)
  · rintro ⟨hself, hbelow⟩ e he
    rw [walk_eq] at he
    rcases List.mem_cons.mp he with hnode | he
    · exact hself e hnode.symm
    · obtain ⟨child, hchild, he⟩ := List.mem_flatMap.mp he
      exact hbelow child hchild e he

@[simp] theorem everyExpr_expr {e : Expr} :
    (Node.expr e).EveryExpr P ↔ P e ∧ ∀ child ∈ e.children, child.EveryExpr P := by
  rw [everyExpr_iff]
  simp [children]

theorem everyExpr_of_not_isExpr {node : Node} (hn : node.isExpr = false) :
    node.EveryExpr P ↔ ∀ child ∈ node.children, child.EveryExpr P := by
  rw [everyExpr_iff, and_iff_right]
  rintro e rfl
  cases hn

theorem everyExpr_of_leaf {node : Node} (hn : node.isExpr = false) (hc : node.children = []) :
    node.EveryExpr P := by
  rw [everyExpr_of_not_isExpr hn, hc]
  exact fun child h => by cases h

@[simp] theorem everyExpr_ident {i : Ident} : (Node.ident i).EveryExpr P :=
  everyExpr_of_leaf rfl rfl

@[simp] theorem everyExpr_string {s : StringLiteral} : (Node.string s).EveryExpr P :=
  everyExpr_of_leaf rfl rfl

@[simp] theorem everyExpr_comment {c : Comment} : (Node.comment c).EveryExpr P :=
  everyExpr_of_leaf rfl rfl

@[simp] theorem everyExpr_label {c : NameClause} : (Node.label c).EveryExpr P := by
  rw [everyExpr_of_not_isExpr rfl]
  simp [children]

@[simp] theorem everyExpr_set {c : NameClause} : (Node.set c).EveryExpr P := by
  rw [everyExpr_of_not_isExpr rfl]
  simp [children]

@[simp] theorem everyExpr_list {l : ListLiteral} : (Node.list l).EveryExpr P := by
  rw [everyExpr_of_not_isExpr rfl]
  simp [children]

@[simp] theorem everyExpr_collection {c : Collection} : c.node.EveryExpr P := by
  cases c <;> simp [Collection.node]

@[simp] theorem everyExpr_binding {b : Binding} :
    (Node.binding b).EveryExpr P ↔ (Node.expr b.value).EveryExpr P := by
  rw [everyExpr_of_not_isExpr rfl]
  simp [children]

@[simp] theorem everyExpr_block {b : Block} :
    (Node.block b).EveryExpr P ↔ ∀ child ∈ b.children, child.EveryExpr P :=
  everyExpr_of_not_isExpr rfl

end Node

namespace Grammar

variable {lax : Prop} {gap : Phrase SyntaxError} {gaps : Gaps} {P : List Token → Expr → Prop}

/-- What is true of an expression among some tokens is so among more of them. -/
structure Widens (P : List Token → Expr → Prop) : Prop where
  widen {toks toks' : List Token} {e : Expr} : toks <:+: toks' → P toks e → P toks' e

theorem Widens.every (hP : Widens P) {toks toks' : List Token} {node : Node} (hs : toks <:+: toks')
    (h : node.EveryExpr (P toks)) : node.EveryExpr (P toks') := fun e he => hP.widen hs (h e he)

section Sub

/-- Everything that a grammar reads has a property throughout. -/
def SubEvery (P : List Token → Expr → Prop) (sub : SubPhrase) : Prop :=
  ∀ {power : Precedence} {toks : List Token} {next : Token} {e : Expr},
    sub power toks next e → (Node.expr e).EveryExpr (P toks)

variable {sub : SubPhrase} (hP : Widens P) (hsub : SubEvery P sub)
include hP

theorem items_every {item : Phrase Expr} {toks : List Token} {stop : Token} {as : List Expr}
    (hitem : ∀ {toks stop a}, item toks stop a → (Node.expr a).EveryExpr (P toks))
    (h : Items item toks stop as) : ∀ a ∈ as, (Node.expr a).EveryExpr (P toks) := by
  induction h with
  | last ha => simpa using hitem ha
  | @cons toks rest comma stop a as ha _ _ ih =>
    refine List.forall_mem_cons.mpr ⟨hP.every ⟨[], comma :: rest, by simp⟩ (hitem ha), ?_⟩
    exact fun a ha => hP.every ⟨toks ++ [comma], [], by simp⟩ (ih a ha)

include hsub

theorem bound_every {toks : List Token} {b : Binding} (h : Bound sub toks b) :
    (Node.binding b).EveryExpr (P toks) := by
  cases h with
  | @intro t n eq semicolon _ _ _ _ _ hv _ =>
    exact Node.everyExpr_binding.mpr (hP.every ⟨[t, n, eq], [semicolon], by simp⟩ (hsub hv))

theorem bounds_every {toks : List Token} {bs : List Binding} (h : Bounds sub toks bs) :
    ∀ b ∈ bs, (Node.binding b).EveryExpr (P toks) := by
  induction h with
  | nil => exact fun b hb => by cases hb
  | @cons front back _ _ hb _ ih =>
    refine List.forall_mem_cons.mpr
      ⟨hP.every (List.prefix_append front back).isInfix (bound_every hP hsub hb), ?_⟩
    exact fun b hb => hP.every (List.suffix_append front back).isInfix (ih b hb)

theorem blocks_every {toks : List Token} {next : Token} {b : Block}
    (h : Blocks sub toks next b) : ∀ child ∈ b.children, child.EveryExpr (P toks) := by
  cases h with
  | @intro front back _ _ _ hbs hv =>
    intro child hchild
    rcases List.mem_append.mp hchild with hchild | hchild
    · obtain ⟨b, hb, rfl⟩ := List.mem_map.mp hchild
      exact hP.every (List.prefix_append front back).isInfix (bounds_every hP hsub hbs b hb)
    · rw [List.mem_singleton.mp hchild]
      exact hP.every (List.suffix_append front back).isInfix (hsub hv)

variable (hfree : ∀ toks e, (Node.expr e).isFree → P toks e)
include hfree

theorem argument_every {toks : List Token} {stop : Token} {e : Expr}
    (h : Argument gap sub toks stop e) : (Node.expr e).EveryExpr (P toks) := by
  cases h with
  | value hv => exact hsub hv
  | block hb _ => exact Node.everyExpr_expr.mpr ⟨hfree _ _ rfl, blocks_every hP hsub hb⟩
  | failed => exact Node.everyExpr_expr.mpr ⟨hfree _ _ rfl, fun child hc => by cases hc⟩

/-- Below what stands in front of the first operator. -/
theorem primary_children_every {toks : List Token} {next : Token} {e : Expr}
    (h : Primary gap sub toks next e) : ∀ child ∈ e.children, child.EveryExpr (P toks) := by
  have hone {inner toks : List Token} {operand : Expr} (hs : inner <:+: toks)
      (ho : (Node.expr operand).EveryExpr (P inner)) :
      ∀ child ∈ [Node.expr operand], child.EveryExpr (P toks) :=
    List.forall_mem_singleton.mpr (hP.every hs ho)
  have hargs {inner toks : List Token} {args : List Expr} (hs : inner <:+: toks)
      (ha : ∀ a ∈ args, (Node.expr a).EveryExpr (P inner)) :
      ∀ child ∈ args.map Node.expr, child.EveryExpr (P toks) := by
    intro child hchild
    obtain ⟨a, hmem, rfl⟩ := List.mem_map.mp hchild
    exact hP.every hs (ha a hmem)
  cases h with
  | number | ident | string | boolean | date | time | callUnit | macroUnit | label | set | list =>
    simp [Expr.children]
  | @unary t _ _ _ _ _ he | @filter t _ _ _ _ he | @overClause t _ _ _ _ he _ =>
    exact hone ⟨[t], [], by simp⟩ (hsub he)
  | @orderBy t by_ _ _ _ _ _ he _ _ =>
    exact hone ⟨[t, by_], [], by simp⟩ (hsub he)
  | @orderByDirection t by_ d _ _ _ _ _ _ he _ =>
    exact hone ⟨[t, by_], [d], by simp⟩ (hsub he)
  | @unit l =>
    have hblank (toks : List Token) : P toks (.blank l) := hfree toks _ rfl
    simp [Expr.children, BlockOf.children, hblank]
  | @paren l r _ _ _ _ hb _ =>
    have hblock := Node.everyExpr_block.mpr (blocks_every hP hsub hb)
    intro child hchild
    rw [List.mem_singleton.mp hchild]
    exact hP.every ⟨[l], [r], by simp⟩ hblock
  | @macroCall d n l r closing _ _ _ _ _ _ ha _ _ =>
    refine List.forall_mem_cons.mpr ⟨Node.everyExpr_ident, ?_⟩
    exact hargs ⟨[d, n, l], [r, closing], by simp⟩ (items_every hP hsub ha)
  | @call t l r _ _ _ _ _ _ ha _ =>
    exact hargs ⟨[t, l], [r], by simp⟩ (items_every hP (argument_every hP hsub hfree) ha)
  | @overAlias t a n _ _ _ _ he _ _ =>
    refine List.forall_mem_cons.mpr ⟨?_, by simp⟩
    exact hP.every ⟨[t], [a, n], by simp⟩ (hsub he)

omit hfree in
/-- Below an operator, if it holds throughout its left operand. -/
theorem operation_children_every {power : Precedence} {left e : Expr} (front : List Token)
    {toks : List Token} {next : Token} (h : Operation sub power left toks next e)
    (hl : (Node.expr left).EveryExpr (P front)) :
    ∀ child ∈ e.children, child.EveryExpr (P (front ++ toks)) := by
  have hleft := hP.every (List.prefix_append front toks).isInfix hl
  cases h with
  | @binary t _ _ toks _ _ _ hr =>
    have hright : toks <:+: front ++ t :: toks := ⟨front ++ [t], [], by simp⟩
    exact List.forall_mem_cons.mpr
      ⟨hleft, List.forall_mem_singleton.mpr (hP.every hright (hsub hr))⟩
  | memberList | memberSet =>
    exact List.forall_mem_cons.mpr
      ⟨hleft, List.forall_mem_singleton.mpr Node.everyExpr_collection⟩

end Sub

theorem operation_isFree {sub : SubPhrase} {power : Precedence} {left e : Expr} {toks : List Token}
    {next : Token} (h : Operation sub power left toks next e) : (Node.expr e).isFree = false := by
  cases h <;> rfl

theorem chain_isFree {levels : Nat} {power : Precedence} {left e : Expr} {toks : List Token}
    {next : Token} (h : Chain gaps levels power left toks next e)
    (hl : (Node.expr left).isFree = false) : (Node.expr e).isFree = false := by
  induction levels generalizing left toks with
  | zero =>
    cases h
    exact hl
  | succ levels ih =>
    rcases h with h | h
    · cases h
      exact hl
    · cases h with
      | intro hop hrest => exact ih hrest (operation_isFree hop)

/-- The free expressions stand for arguments and in parentheses only. -/
theorem expression_isFree {levels : Nat} {power : Precedence} {e : Expr} {toks : List Token}
    {next : Token} (h : Expression gaps levels power toks next e) :
    (Node.expr e).isFree = false := by
  cases levels with
  | zero => exact h.elim
  | succ levels =>
    cases h with
    | intro hp hrest => exact chain_isFree hrest (by cases hp <;> rfl)

/-- What holds throughout all that a grammar reads holds throughout a program. -/
theorem lines_every (hP : Widens P) (hsub : SubEvery P (Expression gaps nestingLimit)) {eof : Token}
    {tokens : List Token} {ss : List Statement} (h : Lines lax gaps eof tokens ss) :
    ∀ s ∈ ss, s.node.EveryExpr (P (tokens.filter (!·.kind.isComment))) := by
  have hbehind {before toks after : List Token} (hb : Between before toks after) :
      before.filter (!·.kind.isComment) = toks ++ after.filter (!·.kind.isComment) := by
    obtain ⟨raw, rfl, rfl⟩ := hb
    exact List.filter_append _ _
  have hthen {before toks after : List Token} {ss : List Statement}
      (hb : Between before toks after) (hss : ∀ s ∈ ss,
        s.node.EveryExpr (P (after.filter (!·.kind.isComment)))) :
      ∀ s ∈ ss, s.node.EveryExpr (P (before.filter (!·.kind.isComment))) := by
    intro s hs
    rw [hbehind hb]
    exact hP.every (List.suffix_append _ _).isInfix (hss s hs)
  have hfirst {before toks after : List Token} {node : Node} (hb : Between before toks after)
      (hnode : node.EveryExpr (P toks)) :
      node.EveryExpr (P (before.filter (!·.kind.isComment))) := by
    rw [hbehind hb]
    exact hP.every (List.prefix_append _ _).isInfix hnode
  have hskip {t : Token} {rest : List Token} : Between (t :: rest)
      ([t].filter (!·.kind.isComment)) rest := ⟨[t], rfl, rfl⟩
  induction h with
  | nil => exact fun s hs => by cases hs
  | skip _ _ ih => exact hthen hskip ih
  | lineComment _ _ ih | blockComment _ _ ih =>
    exact List.forall_mem_cons.mpr ⟨Node.everyExpr_comment, hthen hskip ih⟩
  | binding hb hbound _ ih =>
    exact List.forall_mem_cons.mpr ⟨hfirst hb (bound_every hP hsub hbound), hthen hb ih⟩
  | expression hb he _ ih =>
    exact List.forall_mem_cons.mpr ⟨hfirst hb (hsub he), hthen hb ih⟩
  | ended hb he hb' _ _ ih =>
    exact List.forall_mem_cons.mpr ⟨hfirst hb (hsub he), hthen hb (hthen hb' ih)⟩

end Grammar

open Grammar

/-- A property of all that is read as an expression holds everywhere in the tree of a text. -/
theorem parse_every {P : Expr → Prop}
    (hsub : SubEvery (fun _ => P) (Expression Gaps.any nestingLimit))
    (source : String) : (Node.program (parse source).program).EveryExpr P := by
  rw [Node.everyExpr_of_not_isExpr rfl]
  intro child hchild
  obtain ⟨s, hs, rfl⟩ := List.mem_map.mp hchild
  exact lines_every ⟨fun _ h => h⟩ hsub (parse_lines source) s hs

end PayFormula
