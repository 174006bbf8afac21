import PayFormula.Proofs.Grammar.Everywhere

/-!
# Where calls stand

Calls, macros and parentheses are read from tokens that begin and end with their
own. These tokens stand together among those of the whole text, comments left
out, wherever in the tree the expression is.
-/
namespace PayFormula

/-- Expressions that end in a bracket of their own, with expressions inside. -/
def Expr.isEnclosed : Expr → Bool
  | .paren .. | .macroCall .. | .call .. => true
  | _ => false

namespace Grammar

variable {gaps : Gaps}

/-- The tokens that the expression is read from stand together among some tokens. -/
def Located (gaps : Gaps) (toks : List Token) (e : Expr) : Prop :=
  e.isEnclosed → ∃ levels own next, own <:+: toks ∧
    Primary (gaps levels) (Expression gaps levels) own next e

theorem located_widens : Widens (Located gaps) where
  widen hs h hk := by
    obtain ⟨levels, own, next, hown, hprimary⟩ := h hk
    exact ⟨levels, own, next, hown.trans hs, hprimary⟩

theorem located_of_isFree (toks : List Token) (e : Expr) (h : (Node.expr e).isFree) :
    Located gaps toks e := fun hk => by
  cases e with
  | block | blank | failed => cases hk
  | _ => cases h

theorem primary_located {levels : Nat} (hsub : SubEvery (Located gaps) (Expression gaps levels))
    {toks : List Token} {next : Token} {e : Expr}
    (h : Primary (gaps levels) (Expression gaps levels) toks next e) :
    (Node.expr e).EveryExpr (Located gaps toks) :=
  Node.everyExpr_expr.mpr ⟨fun _ => ⟨levels, toks, next, List.infix_rfl, h⟩,
    primary_children_every located_widens hsub located_of_isFree h⟩

theorem operation_located {levels : Nat} (hsub : SubEvery (Located gaps) (Expression gaps levels))
    {power : Precedence} {left e : Expr} {front toks : List Token} {next : Token}
    (h : Operation (Expression gaps levels) power left toks next e)
    (hl : (Node.expr left).EveryExpr (Located gaps front)) :
    (Node.expr e).EveryExpr (Located gaps (front ++ toks)) := by
  refine Node.everyExpr_expr.mpr
    ⟨fun hk => ?_, operation_children_every located_widens hsub front h hl⟩
  cases h <;> cases hk

theorem chain_located {levels : Nat}
    (hsub : ∀ k < levels, SubEvery (Located gaps) (Expression gaps k))
    {power : Precedence} {left e : Expr} {front toks : List Token} {next : Token}
    (h : Chain gaps levels power left toks next e)
    (hl : (Node.expr left).EveryExpr (Located gaps front)) :
    (Node.expr e).EveryExpr (Located gaps (front ++ toks)) := by
  induction levels generalizing left front toks with
  | zero =>
    cases h
    rwa [List.append_nil]
  | succ levels ih =>
    rcases h with h | h
    · cases h
      rwa [List.append_nil]
    · cases h with
      | intro hop hrest =>
        rw [← List.append_assoc]
        exact ih (fun k hk => hsub k (hk.trans levels.lt_succ_self)) hrest
          (operation_located (hsub levels levels.lt_succ_self) hop hl)

theorem expression_located (levels : Nat) : SubEvery (Located gaps) (Expression gaps levels) := by
  induction levels using Nat.strong_induction_on with
  | _ levels ih =>
    intro power toks next e h
    cases levels with
    | zero => exact h.elim
    | succ levels =>
      cases h with
      | intro hp hc =>
        exact chain_located (fun k hk => ih k (hk.trans levels.lt_succ_self)) hc
          (primary_located (ih levels levels.lt_succ_self) hp)

end Grammar

open Grammar

/-- In the tree of a text without errors, every call, macro and parenthesis has its tokens. -/
theorem parse_located {source : String} (h : (parse source).errors = []) :
    (Node.program (parse source).program).EveryExpr
      (Located Gaps.none ((tokenize source).filter (!·.kind.isComment))) := by
  rw [Node.everyExpr_of_not_isExpr rfl]
  intro child hchild
  obtain ⟨s, hs, rfl⟩ := List.mem_map.mp hchild
  exact lines_every located_widens (expression_located nestingLimit) (parse_lines_strict h) s hs

end PayFormula
