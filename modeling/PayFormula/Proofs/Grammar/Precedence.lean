import PayFormula.Proofs.Grammar.Everywhere

/-!
# Operands are grouped by binding power

What is read above a binding power begins with operators of higher power only,
all the way down its left edge, and ends in front of a token of no higher power.
So an operator that goes on after it groups to the left, and the one in front of
it takes it whole.
-/
namespace PayFormula

namespace Precedence

theorem not_lt {p q : Precedence} : ¬ p < q ↔ q ≤ p := Nat.not_lt

theorem ofMark_lt_unary (m : Mark) : ofMark m < unary := by
  cases m <;> decide

end Precedence

namespace Expr

/-- The binding powers of the operators down the left edge of an expression, outermost first. -/
def leftPowers : Expr → List Precedence
  | .binary _ left op _ => .ofMark op.mark :: left.leftPowers
  | .member _ left _ => .membership :: left.leftPowers
  | _ => []

/-- If an expression is a binary operator, then one of at least this binding power. -/
def BindsAtLeast (power : Precedence) : Expr → Prop
  | .binary _ _ op _ => power ≤ .ofMark op.mark
  | _ => True

/-- The operands of an operator are those that the binding powers give it: on its left nothing
looser than itself, on its right nothing that it would have taken as its left operand. -/
def Grouped : Expr → Prop
  | .unary _ _ operand => operand.leftPowers = []
  | .binary _ left op right =>
    left.BindsAtLeast (.ofMark op.mark) ∧ ∀ power ∈ right.leftPowers, .ofMark op.mark < power
  | .member _ left _ => left.BindsAtLeast .membership
  | _ => True

theorem lt_unary_of_mem_leftPowers {e : Expr} {power : Precedence} (h : power ∈ e.leftPowers) :
    power < .unary := by
  fun_induction leftPowers e with
  | case1 _ left op _ ih =>
    rcases List.mem_cons.mp h with rfl | h
    · exact Precedence.ofMark_lt_unary _
    · exact ih h
  | case2 _ left _ ih =>
    rcases List.mem_cons.mp h with rfl | h
    · decide
    · exact ih h
  | case3 => cases h

theorem grouped_of_isFree {e : Expr} (h : (Node.expr e).isFree) : e.Grouped := by
  cases e <;> trivial

end Expr

namespace Grammar

variable {lax : Prop} {gap : Phrase SyntaxError} {gaps : Gaps}

/-- What is read above a binding power, in front of a token. -/
structure Climbs (power : Precedence) (next : Token) (e : Expr) : Prop where
  every : (Node.expr e).EveryExpr Expr.Grouped
  left : ∀ p ∈ e.leftPowers, power < p
  stop : Precedence.of next.kind ≤ power

/-- A left operand in front of what may go on after it. -/
structure Climbing (power : Precedence) (next : Token) (e : Expr) : Prop where
  every : (Node.expr e).EveryExpr Expr.Grouped
  left : ∀ p ∈ e.leftPowers, power < p
  settled : e.BindsAtLeast (.of next.kind)

/-- Every expression of a grammar is read as its binding power demands. -/
def SubClimbs (sub : SubPhrase) : Prop :=
  ∀ {power : Precedence} {toks : List Token} {next : Token} {e : Expr},
    sub power toks next e → Climbs power next e

section Sub

variable {sub : SubPhrase} (hsub : SubClimbs sub)
include hsub

theorem SubClimbs.every : SubEvery (fun _ => Expr.Grouped) sub := fun h => (hsub h).every

theorem primary_grouped {toks : List Token} {next : Token} {e : Expr}
    (h : Primary gap sub toks next e) : e.Grouped := by
  cases h with
  | unary _ ho =>
    -- nothing binds more tightly than the operator in front of it
    refine List.eq_nil_iff_forall_not_mem.mpr fun p hp => ?_
    exact absurd (Expr.lt_unary_of_mem_leftPowers hp) (Nat.lt_asymm ((hsub ho).left p hp))
  | _ => trivial

theorem primary_climbing {toks : List Token} {next : Token} {e : Expr} (power : Precedence)
    (h : Primary gap sub toks next e) : Climbing power next e where
  every := Node.everyExpr_expr.mpr ⟨primary_grouped hsub h,
    primary_children_every (P := fun _ => Expr.Grouped) ⟨fun _ h => h⟩ hsub.every
      (fun _ _ => Expr.grouped_of_isFree) h⟩
  left := by cases h <;> exact fun p hp => by cases hp
  settled := by cases h <;> trivial

/-- An operator goes on after a left operand that is settled in front of it. -/
theorem operation_climbing {power : Precedence} {left e : Expr} {toks : List Token}
    {next : Token} (h : Operation sub power left toks next e)
    (hl : Climbing power (toks.headD next) left) : Climbing power next e := by
  have hbelow :=
    operation_children_every (P := fun _ => Expr.Grouped) ⟨fun _ h => h⟩ hsub.every [] h
    hl.every
  have hsettled := hl.settled
  cases h with
  | @binary t _ op _ right hk hpower hr =>
    rw [List.headD_cons, hk] at hsettled
    exact {
      every := Node.everyExpr_expr.mpr ⟨⟨hsettled, (hsub hr).left⟩, hbelow⟩
      left := List.forall_mem_cons.mpr ⟨hpower, hl.left⟩
      settled := (hsub hr).stop }
  | memberList hk hpower _ | memberSet hk hpower _ =>
    rw [List.headD_cons, hk] at hsettled
    exact {
      every := Node.everyExpr_expr.mpr ⟨hsettled, hbelow⟩
      left := List.forall_mem_cons.mpr ⟨hpower, hl.left⟩
      settled := trivial }

end Sub

theorem stop_climbs {power : Precedence} {left e : Expr} {toks : List Token} {next : Token}
    (h : Stop power left toks next e) (hl : Climbing power (toks.headD next) left) :
    Climbs power next e := by
  cases h with
  | intro hstop => exact ⟨hl.every, hl.left, Precedence.not_lt.mp hstop⟩

/-- Operators that are chained keep the left operand settled until one stops the chain. -/
theorem chain_climbs {n : Nat} (hsub : ∀ k < n, SubClimbs (Expression gaps k))
    {power : Precedence} {left e : Expr} {toks : List Token} {next : Token}
    (h : Chain gaps n power left toks next e) (hl : Climbing power (toks.headD next) left) :
    Climbs power next e := by
  induction n generalizing left toks with
  | zero => exact stop_climbs h hl
  | succ n ih =>
    rcases h with h | h
    · exact stop_climbs h hl
    · cases h with
      | @intro front back _ _ _ hop hrest =>
        have hfront : front ≠ [] := by cases hop <;> simp
        have hhead : (front ++ back).headD next = front.headD (back.headD next) := by
          cases front with
          | nil => exact absurd rfl hfront
          | cons t front => rfl
        rw [hhead] at hl
        have hleft := operation_climbing (hsub n n.lt_succ_self) hop hl
        exact ih (fun k hk => hsub k (hk.trans n.lt_succ_self)) hrest hleft

theorem expression_climbs (levels : Nat) : SubClimbs (Expression gaps levels) := by
  induction levels using Nat.strong_induction_on with
  | _ levels ih =>
    intro power toks next e h
    cases levels with
    | zero => exact h.elim
    | succ levels =>
      cases h with
      | intro hp hc =>
        have hsub (k : Nat) (hk : k < levels) : SubClimbs (Expression gaps k) :=
          ih k (hk.trans levels.lt_succ_self)
        have hleft := primary_climbing (ih levels levels.lt_succ_self) power hp
        exact chain_climbs hsub hc hleft

end Grammar

open Grammar

/-- In the tree of every text, also of one with errors, the operands of every operator are those
that the table of binding powers gives it. -/
theorem parse_grouped {source : String} {e : Expr}
    (h : .expr e ∈ (Node.program (parse source).program).walk) : e.Grouped :=
  parse_every (fun he => (expression_climbs nestingLimit he).every) source e h

theorem parse_grouped_chained :
    ∃ e, .expr e ∈ (Node.program (parse "1 - 2 in [] * 3 - -4").program).walk ∧
      e.leftPowers = [.sum, .product, .membership, .sum] ∧ e.Grouped := by
  have hpowers : [.sum, .product, .membership, .sum] ∈
      ((Node.program (parse "1 - 2 in [] * 3 - -4").program).walk.filterMap Node.expr?).map
        Expr.leftPowers := by decide +kernel
  obtain ⟨e, he, hleft⟩ := List.mem_map.mp hpowers
  obtain ⟨node, hnode, hexpr⟩ := List.mem_filterMap.mp he
  obtain rfl : node = .expr e := by
    cases node <;> cases hexpr
    rfl
  exact ⟨e, hnode, hleft, parse_grouped hnode⟩

end PayFormula
