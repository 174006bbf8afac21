import PayFormula.Proofs.Grammar.Everywhere

/-!
# Less to pass over

Which tokens a program passes over is seen from its tree and from the text. So a
grammar that lets more be passed over explains the program no better than one
that lets just that be passed over which its placeholders stand for.
-/
namespace PayFormula.Grammar

/-- The tokens stand in the text, perhaps with others between them. -/
def Within (source toks : List Token) : Prop := toks.Sublist source

namespace Within

variable {source front back : List Token} {t : Token}

theorem left (h : Within source (front ++ back)) : Within source front :=
  (List.sublist_append_left front back).trans h

theorem right (h : Within source (front ++ back)) : Within source back :=
  (List.sublist_append_right front back).trans h

theorem tail (h : Within source (t :: back)) : Within source back :=
  (List.sublist_cons_self t back).trans h

theorem of_between {before after toks : List Token} (h : Within source before)
    (hb : Between before toks after) : Within source toks ∧ Within source after := by
  obtain ⟨raw, rfl, rfl⟩ := hb
  exact ⟨List.filter_sublist.trans h.left, h.right⟩

end Within

variable {source : List Token} {P : Expr → Prop} {toks : List Token} {next : Token} {e : Expr}

/-- In the text, for trees that have a property throughout, the first phrase is the second one. -/
def Narrows (source : List Token) (P : Expr → Prop) (phrase phrase' : Phrase Expr) : Prop :=
  ∀ {toks next e}, phrase toks next e → Within source toks → (Node.expr e).EveryExpr P →
    phrase' toks next e

section Sub

variable {gap gap' : Phrase SyntaxError} {sub sub' : SubPhrase}
  (hs : ∀ power, Narrows source P (sub power) (sub' power))

theorem items_narrowed {item item' : Phrase Expr}
    (hitem : ∀ {toks stop e}, item toks stop e → Within source (toks ++ [stop]) →
      (Node.expr e).EveryExpr P → item' toks stop e) {args : List Expr}
    (h : Items item toks next args) (hw : Within source (toks ++ [next]))
    (hP : ∀ arg ∈ args, (Node.expr arg).EveryExpr P) : Items item' toks next args := by
  induction h with
  | last h => exact .last (hitem h hw (hP _ (by simp)))
  | @cons toks rest comma stop a as h hcomma _ ih =>
    obtain ⟨ha, has⟩ := List.forall_mem_cons.mp hP
    rw [List.append_assoc, List.cons_append] at hw
    refine .cons (hitem h ?_ ha) hcomma (ih hw.right.tail has)
    rw [← List.singleton_append, ← List.append_assoc] at hw
    exact hw.left

include hs

theorem bound_narrowed {b : Binding} (h : Bound sub toks b) (hw : Within source toks)
    (hP : (Node.binding b).EveryExpr P) : Bound sub' toks b := by
  cases h with
  | intro hk hn heq hvalue hsemi =>
    have hw : Within source _ := hw.left.tail.tail.tail
    exact .intro hk hn heq (hs _ hvalue hw (Node.everyExpr_binding.mp hP)) hsemi

theorem bounds_narrowed {bs : List Binding} (h : Bounds sub toks bs) (hw : Within source toks)
    (hP : ∀ b ∈ bs, (Node.binding b).EveryExpr P) : Bounds sub' toks bs := by
  induction h with
  | nil => exact .nil
  | cons hb _ ih =>
    obtain ⟨hfirst, hothers⟩ := List.forall_mem_cons.mp hP
    exact .cons (bound_narrowed hs hb hw.left hfirst) (ih hw.right hothers)

theorem blocks_narrowed {b : Block} (h : Blocks sub toks next b) (hw : Within source toks)
    (hP : ∀ child ∈ b.children, child.EveryExpr P) : Blocks sub' toks next b := by
  cases h with
  | intro hbs hvalue =>
    refine .intro (bounds_narrowed hs hbs hw.left fun b hb => hP _ ?_) ?_
    · simp [BlockOf.children, hb]
    · exact hs _ hvalue hw.right (hP _ (by simp [BlockOf.children]))

variable (hgap : ∀ {toks stop e}, gap toks stop e → Within source (toks ++ [stop]) →
  P (.failed e toks) → gap' toks stop e)

include hgap in
theorem argument_narrowed (h : Argument gap sub toks next e) (hw : Within source (toks ++ [next]))
    (hP : (Node.expr e).EveryExpr P) : Argument gap' sub' toks next e := by
  cases h with
  | value h => exact .value (hs _ h hw.left hP)
  | block hb hne => exact .block (blocks_narrowed hs hb hw.left (Node.everyExpr_expr.mp hP).2) hne
  | failed hpassed hempty => exact .failed (hgap hpassed hw (Node.everyExpr_expr.mp hP).1) hempty

include hgap in
theorem primary_narrowed : Narrows source P (Primary gap sub) (Primary gap' sub') := by
  intro toks next e h hw hP
  have hbelow := (Node.everyExpr_expr.mp hP).2
  cases h with
  | number hk hd => exact .number hk hd
  | ident hn => exact .ident hn
  | string hk => exact .string hk
  | boolean hk => exact .boolean hk
  | date hk hd => exact .date hk hd
  | time hk hc => exact .time hk hc
  | unary hk ho => exact .unary hk (hs _ ho hw.tail (hbelow _ (by simp [Expr.children])))
  | unit hl hr => exact .unit hl hr
  | @paren l r _ toks b hl hb hr =>
    have hblock := Node.everyExpr_block.mp (hbelow (.block b) (by simp [Expr.children]))
    exact .paren hl (blocks_narrowed hs hb hw.left.tail hblock) hr
  | macroUnit hd hn hl hr hclosing => exact .macroUnit hd hn hl hr hclosing
  | @macroCall d n l r closing _ toks args hd hn hl hargs hr hclosing =>
    have hw : Within source ((toks ++ [r]) ++ [closing]) := by simpa using hw.tail.tail.tail
    have hitem {toks stop e} (h : sub .lowest toks stop e) (hw : Within source (toks ++ [stop])) :=
      hs .lowest h hw.left
    refine .macroCall hd hn hl (items_narrowed hitem hargs hw.left fun arg harg => ?_) hr hclosing
    exact hbelow _ (by simp [Expr.children, harg])
  | callUnit hk hl hr => exact .callUnit hk hl hr
  | @call t l r _ toks args hk hl hne hargs hr =>
    have hw : Within source (toks ++ [r]) := hw.tail.tail
    have hitem {toks stop e} (h : Argument gap sub toks stop e)
        (hw : Within source (toks ++ [stop])) := argument_narrowed hs hgap h hw
    refine .call hk hl hne (items_narrowed hitem hargs hw fun arg harg => ?_) hr
    exact hbelow _ (by simp [Expr.children, harg])
  | overClause hk hcontext halias =>
    exact .overClause hk (hs _ hcontext hw.tail (hbelow _ (by simp [Expr.children]))) halias
  | overAlias hk hcontext ha hn =>
    exact .overAlias hk (hs _ hcontext hw.left.tail (hbelow _ (by simp [Expr.children]))) ha hn
  | filter hk h => exact .filter hk (hs _ h hw.tail (hbelow _ (by simp [Expr.children])))
  | orderBy hk hb h hasc hdesc =>
    exact .orderBy hk hb (hs _ h hw.tail.tail (hbelow _ (by simp [Expr.children]))) hasc hdesc
  | orderByDirection hk hb h hd =>
    have hw : Within source _ := hw.left.tail.tail
    exact .orderByDirection hk hb (hs _ h hw (hbelow _ (by simp [Expr.children]))) hd
  | label hclause => exact .label hclause
  | set hclause => exact .set hclause
  | list hlist => exact .list hlist

/-- The left operand is below the operation. -/
theorem operation_narrowed {power : Precedence} {left : Expr}
    (h : Operation sub power left toks next e) (hw : Within source toks)
    (hP : (Node.expr e).EveryExpr P) :
    Operation sub' power left toks next e ∧ (Node.expr left).EveryExpr P := by
  have hbelow := (Node.everyExpr_expr.mp hP).2
  cases h with
  | binary hk hpower hright =>
    have hright := hs _ hright hw.tail (hbelow _ (by simp [Expr.children]))
    exact ⟨.binary hk hpower hright, hbelow _ (by simp [Expr.children])⟩
  | memberList hk hpower hlist =>
    exact ⟨.memberList hk hpower hlist, hbelow _ (by simp [Expr.children])⟩
  | memberSet hk hpower hclause =>
    exact ⟨.memberSet hk hpower hclause, hbelow _ (by simp [Expr.children])⟩

end Sub

variable {gaps gaps' : Gaps}
  (hgaps : ∀ levels {toks stop e}, gaps levels toks stop e → Within source (toks ++ [stop]) →
    P (.failed e toks) → gaps' levels toks stop e)
include hgaps

theorem expression_and_chain_narrowed (levels : Nat) :
    (∀ power, Narrows source P (Expression gaps levels power) (Expression gaps' levels power)) ∧
      ∀ power left {toks next e}, Chain gaps levels power left toks next e → Within source toks →
        (Node.expr e).EveryExpr P →
        Chain gaps' levels power left toks next e ∧ (Node.expr left).EveryExpr P := by
  induction levels with
  | zero =>
    refine ⟨fun _ _ _ _ h => h.elim, fun power left _ _ _ h _ hP => ⟨h, ?_⟩⟩
    cases h
    exact hP
  | succ levels ih =>
    refine ⟨fun power _ _ _ h hw hP => ?_, fun power left _ _ _ h hw hP => ?_⟩
    · cases h with
      | intro hprimary hchain =>
        obtain ⟨hchain, hleft⟩ := ih.2 _ _ hchain hw.right hP
        exact .intro (primary_narrowed ih.1 (hgaps levels) hprimary hw.left hleft) hchain
    · rcases h with hstop | hgo
      · refine ⟨.inl hstop, ?_⟩
        cases hstop
        exact hP
      · cases hgo with
        | intro hop hchain =>
          obtain ⟨hchain, hmiddle⟩ := ih.2 _ _ hchain hw.right hP
          obtain ⟨hop, hleft⟩ := operation_narrowed ih.1 hop hw.left hmiddle
          exact ⟨.inr (.intro hop hchain), hleft⟩

theorem expression_narrowed (levels : Nat) (power : Precedence) :
    Narrows source P (Expression gaps levels power) (Expression gaps' levels power) :=
  (expression_and_chain_narrowed hgaps levels).1 power

/-- Statements in the text lie in their tokens with just that passed over which their placeholders
stand for. -/
theorem lines_narrowed {lax : Prop} {eof : Token} {tokens : List Token} {ss : List Statement}
    (h : Lines lax gaps eof tokens ss) (hw : Within source tokens)
    (hP : ∀ s ∈ ss, s.node.EveryExpr P) : Lines lax gaps' eof tokens ss := by
  have hsub := expression_narrowed hgaps nestingLimit
  induction h with
  | nil => exact .nil
  | skip hk _ ih => exact .skip hk (ih hw.tail hP)
  | lineComment hk _ ih => exact .lineComment hk (ih hw.tail (List.forall_mem_cons.mp hP).2)
  | blockComment hk _ ih => exact .blockComment hk (ih hw.tail (List.forall_mem_cons.mp hP).2)
  | binding hb hbound _ ih =>
    obtain ⟨hfirst, hothers⟩ := List.forall_mem_cons.mp hP
    obtain ⟨htoks, hafter⟩ := hw.of_between hb
    exact .binding hb (bound_narrowed hsub hbound htoks hfirst) (ih hafter hothers)
  | expression hb he _ ih =>
    obtain ⟨hfirst, hothers⟩ := List.forall_mem_cons.mp hP
    obtain ⟨htoks, hafter⟩ := hw.of_between hb
    exact .expression hb (hsub _ he htoks hfirst) (ih hafter hothers)
  | ended hb he hb' hk _ ih =>
    obtain ⟨hfirst, hothers⟩ := List.forall_mem_cons.mp hP
    obtain ⟨htoks, hmiddle⟩ := hw.of_between hb
    exact .ended hb (hsub _ he htoks hfirst) hb' hk (ih (hmiddle.of_between hb').2 hothers)

end PayFormula.Grammar
