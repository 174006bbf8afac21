import PayFormula.Proofs.Grammar.Program
import PayFormula.Proofs.Tree.Nesting

/-!
# Phrases are well nested

Whatever a phrase is read as covers its tokens, also in the lax grammar: an
argument that was passed over covers the tokens in its place, or lies on the
mark that ends it if there are none.
-/
namespace PayFormula.Grammar

variable {lax : Prop} {gap : Phrase SyntaxError} {gaps : Gaps}

theorem token_fills {t : Token} {toks : List Token} {node : Node} (ho : Ordered toks)
    (ht : toks = [t]) (hs : node.span = t.span) (hc : node.children = []) : node.Fills toks := by
  subst ht
  refine .of_row (hs ▸ .single ho) ?_
  rw [hc]
  exact .nil

theorem ident_fills {n : Token} {toks : List Token} (ho : Ordered toks) (hn : n ∈ toks) :
    (Node.ident ⟨n⟩).Fills [n] :=
  token_fills (ho.sublist (List.singleton_sublist.mpr hn)) rfl rfl rfl

theorem strings_row {toks : List Token} {strings : List StringLiteral} (h : Strings toks strings)
    (ho : Ordered toks) : Row toks (strings.map .string) := by
  induction h with
  | nil => exact .nil
  | @last s _ =>
    have hfirst : (Node.string ⟨s⟩).Fills [s] := token_fills ho rfl rfl rfl
    exact .single hfirst.within
  | @cons s comma toks strings _ _ _ ih =>
    have hfirst : (Node.string ⟨s⟩).Fills [s] :=
      token_fills (ho.sublist (by simp)) rfl rfl rfl
    have hrow := Row.cons (ho.sublist (by simp)) hfirst.within (ih (ho.sublist (by simp)))
    exact hrow.mono (by simp)

/-- A keyword and a name, as whatever node has just the name below it. -/
theorem clause_fills {word : Keyword} {toks : List Token} {next : Token} {clause : NameClause}
    (h : Clause word toks next clause) (ho : Ordered toks) {node : Node}
    (hs : node.span = clause.span) (hc : node.children = [.ident clause.name]) :
    node.Fills toks := by
  cases h with
  | @intro t n _ _ _ =>
    refine .of_row (hs ▸ Covers.ends [] ho) ?_
    rw [hc]
    exact (Row.single (ident_fills ho (by simp)).within).mono (by simp)

theorem listing_fills {toks : List Token} {next : Token} {l : ListLiteral}
    (h : Listing toks next l) (ho : Ordered toks) {node : Node} (hs : node.span = l.span)
    (hc : node.children = l.strings.map .string) : node.Fills toks := by
  cases h with
  | @intro l r _ toks strings _ hS _ =>
    refine .of_row (hs ▸ Covers.ends _ ho) ?_
    rw [hc]
    exact (strings_row hS (ho.sublist (by grind))).mono (by simp)

theorem items_row {item : Phrase Expr} {toks : List Token} {stop : Token} {as : List Expr}
    (hitem : ∀ {toks stop a}, item toks stop a → Ordered (toks ++ [stop]) →
      (Node.expr a).Within (toks ++ [stop]))
    (h : Items item toks stop as) (ho : Ordered (toks ++ [stop])) :
    Row (toks ++ [stop]) (as.map .expr) := by
  induction h with
  | last ha => exact .single (hitem ha ho)
  | @cons toks rest comma stop a as ha _ _ ih =>
    have hfirst := hitem ha (ho.sublist (by simp))
    have hrow := Row.cons (ho.sublist (by simp)) hfirst (ih (ho.sublist (by grind)))
    exact hrow.mono (by simp)

section Sub

/-- Every expression of a grammar covers its tokens. -/
def SubFills (sub : SubPhrase) : Prop :=
  ∀ {power : Precedence} {toks : List Token} {next : Token} {e : Expr},
    sub power toks next e → Ordered toks → (Node.expr e).Fills toks

variable {sub : SubPhrase} (hsub : SubFills sub)
include hsub

theorem bound_fills {toks : List Token} {b : Binding} (h : Bound sub toks b) (ho : Ordered toks) :
    (Node.binding b).Fills toks := by
  cases h with
  | @intro t n eq semicolon toks value _ _ _ hv _ =>
    refine .of_row (Covers.ends _ ho) ?_
    have hname := ident_fills ho (n := n) (by simp)
    have hvalue := hsub hv (ho.sublist (by grind))
    have hrow := Row.pair (ho.sublist (by grind)) hname.within hvalue.within
    exact hrow.mono (by grind)

theorem bounds_row {toks : List Token} {bs : List Binding} (h : Bounds sub toks bs)
    (ho : Ordered toks) : Row toks (bs.map .binding) := by
  induction h with
  | nil => exact .nil
  | cons hb _ ih => exact .cons ho (bound_fills hsub hb ho.left).within (ih ho.right)

/-- A block covers its tokens, as whatever node has its span and its children. -/
theorem block_fills {toks : List Token} {next : Token} {b : Block} (h : Blocks sub toks next b)
    (ho : Ordered toks) {node : Node} (hs : node.span = b.span) (hc : node.children = b.children) :
    node.Fills toks := by
  cases h with
  | @intro front back _ bs value hbs hv =>
    have hvalue := hsub hv ho.right
    refine .of_row (hs ▸ ?_) (hc ▸ ?_)
    · cases hbs with
      | nil => exact hvalue.covers
      | cons hb _ => exact Covers.join _ ho (bound_fills hsub hb ho.left.left).covers hvalue.covers
    · have hrow := bounds_row hsub hbs ho.left
      rw [BlockOf.children]
      constructor
      · intro child hchild
        rcases List.mem_append.mp hchild with hchild | hchild
        · exact (hrow.within child hchild).mono (List.subset_append_left _ _)
        · rw [List.mem_singleton.mp hchild]
          exact hvalue.within.mono (List.subset_append_right _ _)
      · refine List.pairwise_append.mpr ⟨hrow.pairwise, List.pairwise_singleton _ _, ?_⟩
        intro b hb v hv
        rw [List.mem_singleton.mp hv]
        exact (hrow.within b hb).inside.lt ho hvalue.covers.toInside

/-- A block that is an argument is a node of its own. -/
theorem argument_block_fills {toks : List Token} {next : Token} {b : Block}
    (h : Blocks sub toks next b) (ho : Ordered toks) : (Node.expr (.block b)).Fills toks := by
  refine block_fills hsub h ho ?_ rfl
  obtain ⟨bs, value⟩ := b
  cases bs <;> rfl

theorem argument_within {toks : List Token} {stop : Token} {e : Expr}
    (h : Argument gap sub toks stop e) (ho : Ordered (toks ++ [stop])) :
    (Node.expr e).Within (toks ++ [stop]) := by
  cases h with
  | value hv => exact (hsub hv ho.left).within.mono (List.subset_append_left _ _)
  | block hb _ =>
    exact (argument_block_fills hsub hb ho.left).within.mono (List.subset_append_left _ _)
  | @failed _ _ e _ hnil =>
    suffices h : Covers toks (Expr.span (.failed e toks)) ∨
        toks = [] ∧ Expr.span (.failed e toks) = stop.span by
      rcases h with h | ⟨rfl, hs⟩
      · have hfills : (Node.expr (.failed e toks)).Fills toks := .of_row h .nil
        exact hfills.within.mono (List.subset_append_left _ _)
      · have hfills : (Node.expr (.failed e [])).Fills [stop] := token_fills ho rfl hs rfl
        exact hfills.within
    cases toks with
    | nil => exact .inr ⟨rfl, congrArg Token.span (hnil rfl)⟩
    | cons t ts =>
      left
      rcases List.eq_nil_or_concat' ts with rfl | ⟨middle, u, rfl⟩
      · exact .single ho.left
      · have hlast : (t :: (middle ++ [u])).getLast (by simp) = u := by simp
        rw [Expr.span, hlast]
        exact Covers.ends _ ho.left

theorem primary_fills {toks : List Token} {next : Token} {e : Expr}
    (h : Primary gap sub toks next e) (ho : Ordered toks) : (Node.expr e).Fills toks := by
  cases h with
  | number | ident | string | boolean | date | time => exact token_fills ho rfl rfl rfl
  | @unary t _ op toks operand _ hoperand =>
    have hfills := hsub hoperand ho.tail
    refine .of_row (Covers.join_head [] ho hfills.covers) ?_
    exact (Row.single hfills.within).mono (List.subset_cons_self _ _)
  | @unit l r _ _ _ =>
    have hl : Ordered [l] := ho.head
    have hblank : (Node.expr (.blank l)).Fills [l] := token_fills hl rfl rfl rfl
    have hblock : (Node.block ⟨[], .blank l⟩).Fills [l] :=
      .of_row hblank.covers (.single hblank.within)
    exact .of_row (Covers.ends [] ho) ((Row.single hblock.within).mono (by simp))
  | @paren l r _ toks b _ hb _ =>
    have hblock : (Node.block b).Fills toks :=
      block_fills hsub hb (ho.sublist (by grind)) rfl rfl
    exact .of_row (Covers.ends _ ho) ((Row.single hblock.within).mono (by simp))
  | @macroUnit d n l r closing _ _ _ _ _ _ =>
    have hname := ident_fills ho (n := n) (by simp)
    exact .of_row (Covers.ends [n, l, r] ho)
      ((Row.single hname.within).mono (by simp))
  | @macroCall d n l r closing _ toks args _ _ _ hargs _ _ =>
    have hname := ident_fills ho (n := n) (by simp)
    have hrow := items_row
      (fun ha ho => (hsub ha ho.left).within.mono (List.subset_append_left _ _)) hargs
      (ho.sublist (by grind))
    have hsub : ([n] ++ (toks ++ [r])).Sublist (d :: n :: l :: toks ++ [r, closing]) :=
      ((((List.Sublist.refl toks).append (by simp)).cons l).cons_cons n).cons d
    have hall := Row.cons (ho.sublist hsub) hname.within hrow
    refine .of_row ?_ (hall.mono hsub.subset)
    have hends := Covers.ends (n :: l :: toks ++ [r]) (t := d) (u := closing)
    simp only [List.cons_append, List.append_assoc, List.nil_append] at hends ho ⊢
    exact hends ho
  | @callUnit t l r _ _ _ _ => exact .of_row (Covers.ends [l] ho) .nil
  | @call t l r _ toks args _ _ _ hargs _ =>
    have hrow := items_row (argument_within hsub) hargs (ho.sublist (by grind))
    exact .of_row (Covers.ends (l :: toks) ho) (hrow.mono (by grind))
  | @overClause t _ toks context _ hcontext _ =>
    have hfills := hsub hcontext ho.tail
    refine .of_row (Covers.join_head [] ho hfills.covers) ?_
    exact (Row.single hfills.within).mono (List.subset_cons_self _ _)
  | @overAlias t a n _ toks context _ hcontext ha hn =>
    have hfills := hsub hcontext (ho.sublist (by grind))
    have ho' : Ordered [a, n] := ho.sublist (by grind)
    have hclause : (Node.label ⟨a, ⟨n⟩⟩).Fills [a, n] :=
      clause_fills (.intro ha hn : Clause .aliasWord [a, n] n _) ho' rfl rfl
    refine .of_row (Covers.join_head toks ho hclause.covers) ?_
    have hrow := Row.pair (ho.sublist (by grind)) hfills.within hclause.within
    exact hrow.mono (by simp)
  | @filter t _ toks condition _ hcondition =>
    have hfills := hsub hcondition ho.tail
    refine .of_row (Covers.join_head [] ho hfills.covers) ?_
    exact (Row.single hfills.within).mono (List.subset_cons_self _ _)
  | @orderBy t by_ _ toks key _ _ hkey _ _ =>
    have hfills := hsub hkey (ho.sublist (by simp))
    refine .of_row (Covers.join_head [by_] ho hfills.covers) ?_
    exact (Row.single hfills.within).mono (by simp)
  | @orderByDirection t by_ d _ toks key direction _ _ hkey _ =>
    have hfills := hsub hkey (ho.sublist (by grind))
    have hlast : Covers [d] d.span := .single (ho.sublist (by simp))
    refine .of_row (Covers.join_head (by_ :: toks) ho hlast) ?_
    exact (Row.single hfills.within).mono (by grind)
  | label hc | set hc => exact clause_fills hc ho rfl rfl
  | list hl => exact listing_fills hl ho rfl rfl

/-- An operator covers its left operand, itself and its right operand. -/
theorem operation_fills {power : Precedence} {left e : Expr} {front toks : List Token}
    {next : Token} (h : Operation sub power left toks next e) (ho : Ordered (front ++ toks))
    (hl : (Node.expr left).Fills front) : (Node.expr e).Fills (front ++ toks) := by
  have hright {t : Token} {toks : List Token} {node right : Node}
      (ho : Ordered (front ++ t :: toks)) (hr : right.Fills toks)
      (hs : node.span = (Node.expr left).span.join right.span)
      (hc : node.children = [.expr left, right]) : node.Fills (front ++ t :: toks) := by
    refine .of_row (hs ▸ ?_) (hc ▸ ?_)
    · have hjoin := Covers.join [t] (by simpa using ho) hl.covers hr.covers
      simpa using hjoin
    · exact (Row.pair (ho.sublist (by simp)) hl.within hr.within).mono (by simp)
  cases h with
  | binary _ _ hr => exact hright ho (hsub hr (ho.sublist (by grind))) rfl rfl
  | @memberList _ _ _ l _ _ hr =>
    have hlist : (Node.list l).Fills _ := listing_fills hr (ho.sublist (by grind)) rfl rfl
    exact hright ho hlist rfl rfl
  | @memberSet _ _ _ clause _ _ hr =>
    have hset : (Node.set clause).Fills _ := clause_fills hr (ho.sublist (by grind)) rfl rfl
    exact hright ho hset rfl rfl

end Sub

/-- Whatever goes on after a left operand covers it too. -/
theorem chain_fills {levels : Nat} (hsub : ∀ n < levels, SubFills (Expression gaps n))
    {power : Precedence} {left e : Expr} {front toks : List Token} {next : Token}
    (h : Chain gaps levels power left toks next e) (ho : Ordered (front ++ toks))
    (hl : (Node.expr left).Fills front) : (Node.expr e).Fills (front ++ toks) := by
  induction levels generalizing left front toks with
  | zero =>
    cases h
    rwa [List.append_nil]
  | succ levels ih =>
    rcases h with h | h
    · cases h
      rwa [List.append_nil]
    · cases h with
      | intro hop hrest =>
        rw [← List.append_assoc] at ho ⊢
        have hfills := operation_fills (hsub levels levels.lt_succ_self) hop ho.left hl
        exact ih (fun n hn => hsub n (hn.trans levels.lt_succ_self)) hrest ho hfills

theorem expression_fills (levels : Nat) : SubFills (Expression gaps levels) := by
  induction levels using Nat.strong_induction_on with
  | _ levels ih =>
    intro power toks next e h ho
    cases levels with
    | zero => exact h.elim
    | succ levels =>
      cases h with
      | intro hp hc =>
        have hleft := primary_fills (ih levels levels.lt_succ_self) hp ho.left
        exact chain_fills (fun n hn => ih n (hn.trans levels.lt_succ_self)) hc ho hleft

/-- The statements of a program stand one behind the other in its tokens. -/
theorem lines_row {eof : Token} {tokens : List Token} {ss : List Statement}
    (h : Lines lax gaps eof tokens ss) (ho : Ordered tokens) :
    Row tokens (ss.map Statement.node) := by
  have hbetween {before toks after : List Token} (hb : Between before toks after)
      {node : Node} {nodes : List Node} (ho : Ordered before)
      (hn : Ordered toks → node.Fills toks) (hr : Ordered after → Row after nodes) :
      Row before (node :: nodes) := by
    obtain ⟨raw, rfl, rfl⟩ := hb
    have hsub : (raw.filter (!·.kind.isComment)).Sublist raw := List.filter_sublist
    have hfills := hn (ho.left.sublist hsub)
    exact .cons ho (hfills.within.mono hsub.subset) (hr ho.right)
  induction h with
  | nil => exact .nil
  | skip _ _ ih => exact (ih (ho.sublist (List.sublist_cons_self _ _))).mono (by simp)
  | @lineComment t rest ss _ _ ih | @blockComment t rest ss _ _ ih =>
    have hfills : (Node.comment ⟨t⟩).Fills [t] :=
      token_fills ho.head rfl rfl rfl
    exact Row.cons (show Ordered ([t] ++ rest) from ho) hfills.within (ih ho.tail)
  | binding hb hB _ ih => exact hbetween hb ho (bound_fills (expression_fills _) hB) ih
  | expression hb hE _ ih => exact hbetween hb ho (expression_fills _ hE) ih
  | ended hb hE hs _ _ ih =>
    refine hbetween hb ho (expression_fills _ hE) fun ho => ?_
    obtain ⟨raw, rfl, -⟩ := hs
    exact (ih ho.right).mono (List.subset_append_right _ _)

end PayFormula.Grammar
