import PayFormula.Proofs.Calendar
import PayFormula.Proofs.Grammar.Complete
import PayFormula.Proofs.Token.Spells
import PayFormula.Proofs.Tree.Pieces

/-!
# What is printed is spelled

The text that is printed for a phrase of tokens that were read spells the pieces
of its tree: no two of them run together, and nothing is read between them. What
was passed over has to be spelled so, too.
-/
namespace PayFormula.Grammar

/-- Every token was read from some text. -/
def Legible (toks : List Token) : Prop := ∀ t ∈ toks, t.piece.IsRead

namespace Legible

variable {front back : List Token} {t : Token}

theorem left (h : Legible (front ++ back)) : Legible front :=
  fun t ht => h t (List.mem_append_left back ht)

theorem right (h : Legible (front ++ back)) : Legible back :=
  fun t ht => h t (List.mem_append_right front ht)

theorem head (h : Legible (t :: back)) : t.piece.IsRead := h t List.mem_cons_self

theorem tail (h : Legible (t :: back)) : Legible back :=
  fun u hu => h u (List.mem_cons_of_mem t hu)

end Legible

theorem kept_spells {t : Token} (h : t.piece.IsRead) (hk : t.kind.isKept)
    (hne : t.kind ≠ .string) : Spells t.literal [t.piece] :=
  spells_kept h hk (Piece.text_of_ne (p := t.piece) hne).symm

theorem name_spells {n : Token} (h : n.piece.IsRead) (hn : n.IsName) :
    Spells n.literal [n.piece] :=
  kept_spells h (by rw [hn.kind]; rfl) (by rw [hn.kind]; simp)

theorem string_spells {s : Token} (h : s.piece.IsRead) (hs : s.kind = .string) :
    Spells (StringLiteral.render ⟨s⟩) [s.piece] := by
  refine spells_kept h (by rw [Token.piece, hs]; rfl) ?_
  rw [StringLiteral.render, Piece.text_of_eq (p := s.piece) hs, String.toList_append,
    String.toList_append]
  rfl

theorem clause_spells {word : Keyword} {front : String} {toks : List Token} {next : Token}
    {clause : NameClause} (hword : Firm front [word.piece]) (h : Clause word toks next clause)
    (hl : Legible toks) : Spells (front ++ clause.name.render) (clause.pieces word) := by
  cases h with
  | intro _ hn => exact hword.spells_append (name_spells hl.tail.head hn)

theorem strings_spell {toks : List Token} {ss : List StringLiteral} (h : Strings toks ss)
    (hl : Legible toks) :
    List.Forall₂ SpellsItem (ss.map StringLiteral.render) (ss.map ([·.piece])) := by
  induction h with
  | nil => exact .nil
  | last hs => exact .cons (string_spells hl.head hs).item .nil
  | cons hs _ _ ih => exact .cons (string_spells hl.head hs).item (ih hl.tail.tail)

theorem listing_spells {toks : List Token} {next : Token} {l : ListLiteral}
    (h : Listing toks next l) (hl : Legible toks) : Firm l.render l.pieces := by
  cases h with
  | intro _ hstrings _ =>
    have hspells := spells_commaSeparated (strings_spell hstrings hl.tail.left)
    have hleft := (firm_mark (m := .lbracket) rfl).item_append hspells
    exact hleft.firm_append rfl (by decide) (firm_mark (m := .rbracket) rfl)

/-- A blank, an operator or a keyword, and a blank. -/
theorem firm_equals : Firm " = " [Mark.eq.piece] :=
  firm_blank.append ((firm_mark (m := .eq) rfl).append firm_blank)

theorem firm_over : Firm "over " [Keyword.overWord.piece] := firm_keyword .overWord

theorem firm_where : Firm "where " [Keyword.whereWord.piece] := firm_keyword .whereWord

theorem firm_alias : Firm "alias " [Keyword.aliasWord.piece] := firm_keyword .aliasWord

theorem firm_set : Firm "set " [Keyword.setWord.piece] := firm_keyword .setWord

theorem firm_orderBy : Firm "order by " [Keyword.orderWord.piece, Keyword.byWord.piece] :=
  (firm_keyword .orderWord).append (firm_keyword .byWord)

theorem firm_operator (op : BinaryOp) : Firm (op.text ++ " ") [op.mark.piece] := by
  intro after qs h
  rw [String.toList_append, List.append_assoc]
  exact reads_operator op (.space rfl h)

theorem firm_in : Firm " in " [Keyword.inWord.piece] := firm_blank.append (firm_keyword .inWord)

theorem opens_in : Opens " in " := ⟨' ', ['i', 'n', ' '], rfl, by decide⟩

/-- What stands between parentheses behind a name, and what closes them. -/
theorem applied_spells {name text closing : String} {ps qs rs : List Piece} (hname : Spells name ps)
    (htext : SpellsItem text qs) {rest : List Char} (hopens : closing.toList = ')' :: rest)
    (hclosing : Firm closing rs) :
    Spells (name ++ "(" ++ text ++ closing) (ps ++ Mark.lparen.piece :: (qs ++ rs)) := by
  have hopens' : Opens "(" := ⟨'(', [], rfl, by decide⟩
  have hleft := hname.firm_append hopens' (firm_mark (m := .lparen) rfl)
  have hspells := ((hleft.item_append htext).firm_append hopens (by decide) hclosing).spells
  simpa using hspells

theorem firm_rparen : Firm ")" [Mark.rparen.piece] := firm_mark (m := .rparen) rfl

theorem firm_closing : Firm ")$" [Mark.rparen.piece, Mark.dollar.piece] :=
  firm_rparen.append (firm_mark (m := .dollar) rfl)

theorem direction_spells (direction : Direction) :
    Spells direction.text [direction.word.piece] := by
  cases direction with
  | ascending => exact spells_keyword .ascWord
  | descending => exact spells_keyword .descWord

theorem unary_spells {e : Expr} (op : UnaryOp) (h : Spells e.render e.pieces)
    (hstarts : ∃ p ps, e.pieces = p :: ps ∧ p.1.starts) :
    Spells (op.text ++ e.render) (op.mark.piece :: e.pieces) := by
  cases op with
  | negate => exact (firm_mark (m := .minus) rfl).spells_append h
  | not =>
    intro after qs hd hreads
    obtain ⟨p, ps, hpieces, hp⟩ := hstarts
    have heq : p.1 ≠ .mark .eq := by
      intro hk
      rw [hk] at hp
      simp [TokenKind.starts] at hp
    have hoperand := h hd hreads
    rw [hpieces] at hoperand ⊢
    rw [String.toList_append, List.append_assoc]
    exact reads_bang heq hoperand

section Sub

/-- Whatever is printed for an expression of the grammar spells its pieces. -/
structure SubSpelled (R : SubPhrase) : Prop where
  spells : ∀ {power toks next e}, R power toks next e → Legible toks → Spells e.render e.pieces
  starts : ∀ {power toks next e}, R power toks next e → ∃ p ps, e.pieces = p :: ps ∧ p.1.starts

/-- What is passed over is printed as its pieces with blanks between them. -/
def SpelledGap (gap : Phrase SyntaxError) : Prop :=
  ∀ {toks stop e}, gap toks stop e → Legible toks →
    SpellsItem (" ".intercalate (toks.map Token.render)) (toks.map Token.piece)

variable {R : SubPhrase} (hs : SubSpelled R) {toks : List Token} {next : Token} {e : Expr}
include hs

theorem bound_spells {b : Binding} (h : Bound R toks b) (hl : Legible toks) :
    Firm b.render b.pieces := by
  cases h with
  | intro _ hn _ hv _ =>
    have hname := name_spells hl.left.tail.head hn
    have hvalue := hs.spells hv hl.left.tail.tail.tail
    have hopens : Opens " = " := ⟨' ', ['=', ' '], rfl, by decide⟩
    have hopens' : Opens ";" := ⟨';', [], rfl, by decide⟩
    have hleft := ((firm_keyword .varWord).spells_append hname).firm_append hopens firm_equals
    exact (hleft.spells_append hvalue).firm_append hopens' (firm_mark (m := .semicolon) rfl)

theorem bounds_spell {bs : List Binding} (h : Bounds R toks bs) (hl : Legible toks) :
    Firm (renderBindings bs) (bindingsPieces bs) := by
  induction h with
  | nil => exact firm_nil
  | @cons _ _ b bs hb _ ih =>
    have hbound := bound_spells hs hb hl.left
    have hall := (hbound.append firm_blank).append (ih hl.right)
    rw [renderBindings_cons, bindingsPieces_cons]
    simpa using hall

theorem block_spells {b : Block} (h : Blocks R toks next b) (hl : Legible toks) :
    Spells b.render b.pieces := by
  cases h with
  | intro hbs hv => exact (bounds_spell hs hbs hl.left).spells_append (hs.spells hv hl.right)

omit hs in
theorem items_spell {item : Phrase Expr} {stop : Token} {args : List Expr}
    (hitem : ∀ {toks stop e}, item toks stop e → Legible toks → SpellsItem e.render e.pieces)
    (h : Items item toks stop args) (hl : Legible toks) :
    List.Forall₂ SpellsItem (renderArgs args) (argsPieces args) := by
  induction h with
  | last ha => exact .cons (hitem ha hl) .nil
  | cons ha _ _ ih => exact .cons (hitem ha hl.left) (ih hl.right.tail)

variable {gap : Phrase SyntaxError} (hgap : SpelledGap gap)

include hgap in
theorem argument_spells {stop : Token} (h : Argument gap R toks stop e) (hl : Legible toks) :
    SpellsItem e.render e.pieces := by
  cases h with
  | value hv => exact (hs.spells hv hl).item
  | block hb _ =>
    rw [Expr.render, Expr.pieces]
    exact (block_spells hs hb hl).item
  | failed hpassed _ =>
    rw [Expr.render, Expr.pieces]
    exact hgap hpassed hl

include hgap in
theorem primary_spells (h : Primary gap R toks next e) (hl : Legible toks) :
    Spells e.render e.pieces := by
  cases h with
  | number hk _ =>
    rw [Expr.render, Expr.pieces]
    rcases hk with hk | hk
    · exact kept_spells hl.head (by rw [hk]; rfl) (by rw [hk]; simp)
    · exact kept_spells hl.head (by rw [hk]; rfl) (by rw [hk]; simp)
  | ident hn => exact name_spells hl.head hn
  | string hk => exact string_spells hl.head hk
  | @boolean _ _ value hk =>
    cases value with
    | true => exact spells_keyword .trueWord
    | false => exact spells_keyword .falseWord
  | date hk hd =>
    have hspells := kept_spells hl.head (by rw [hk]; rfl) (by rw [hk]; simp)
    rw [Token.piece, hk, ← Date.render_of_ofChars hd] at hspells
    exact hspells
  | time hk hc =>
    have hspells := kept_spells hl.head (by rw [hk]; rfl) (by rw [hk]; simp)
    rw [Token.piece, hk, ← Clock.render_of_ofChars hc] at hspells
    exact hspells
  | @unary _ _ op _ _ _ ho => exact unary_spells op (hs.spells ho hl.tail) (hs.starts ho)
  | unit _ _ =>
    have hspells := applied_spells firm_nil.spells firm_nil.spells.item rfl firm_rparen
    rw [String.empty_append, String.append_empty] at hspells
    rw [Expr.render, Expr.pieces, renderBindings, bindingsPieces, Expr.render, Expr.pieces,
      String.append_empty, String.append_empty]
    exact hspells
  | paren _ hb _ =>
    have hblock := block_spells hs hb hl.tail.left
    have hspells := applied_spells firm_nil.spells hblock.item rfl firm_rparen
    rw [BlockOf.render, BlockOf.pieces, String.empty_append, ← String.append_assoc] at hspells
    rw [Expr.render, Expr.pieces]
    exact hspells
  | macroUnit _ hn _ _ _ =>
    have hname := (firm_mark (m := .dollar) rfl).spells_append (name_spells hl.tail.head hn)
    have hargs : List.Forall₂ SpellsItem (renderArgs []) (argsPieces []) := .nil
    rw [Expr.render, Expr.pieces]
    exact applied_spells hname (spells_commaSeparated hargs) rfl firm_closing
  | macroCall _ hn _ hargs _ _ =>
    have hname := (firm_mark (m := .dollar) rfl).spells_append (name_spells hl.tail.head hn)
    have hargs := items_spell (fun h hl => (hs.spells h hl).item) hargs hl.tail.tail.tail.left
    rw [Expr.render, Expr.pieces]
    exact applied_spells hname (spells_commaSeparated hargs) rfl firm_closing
  | callUnit hk _ _ =>
    have hname := kept_spells hl.head (by rw [hk]; rfl) (by rw [hk]; simp)
    have hargs : List.Forall₂ SpellsItem (renderArgs []) (argsPieces []) := .nil
    rw [Expr.render, Expr.pieces]
    exact applied_spells hname (spells_commaSeparated hargs) rfl firm_rparen
  | call hk _ _ hargs _ =>
    have hname := kept_spells hl.head (by rw [hk]; rfl) (by rw [hk]; simp)
    have hargs := items_spell (argument_spells hs hgap) hargs hl.tail.tail.left
    rw [Expr.render, Expr.pieces]
    exact applied_spells hname (spells_commaSeparated hargs) rfl firm_rparen
  | overClause _ hcontext _ =>
    rw [Expr.render, Expr.pieces]
    simpa using firm_over.spells_append (hs.spells hcontext hl.tail)
  | overAlias _ hcontext _ hn =>
    have hcontext := hs.spells hcontext hl.tail.left
    have halias := firm_alias.spells_append (name_spells hl.tail.right.tail.head hn)
    have hclause := firm_blank.spells_append halias
    have hspells := (firm_over.spells_append hcontext).append (opens_blank.append _) hclause
    rw [Expr.render, Expr.pieces]
    exact hspells
  | filter _ hcondition =>
    rw [Expr.render, Expr.pieces]
    exact firm_where.spells_append (hs.spells hcondition hl.tail)
  | orderBy _ _ hkey _ _ =>
    have hspells := firm_orderBy.spells_append (hs.spells hkey hl.tail.tail)
    rw [Expr.render, Expr.pieces]
    simpa using hspells
  | @orderByDirection _ _ d _ _ _ direction _ _ hkey _ =>
    have hkey := hs.spells hkey hl.tail.tail.left
    have hdirection := firm_blank.spells_append (direction_spells direction)
    have hspells := (firm_orderBy.spells_append hkey).append (opens_blank.append _) hdirection
    rw [Expr.render, Expr.pieces]
    exact hspells
  | label hclause =>
    rw [Expr.render, Expr.pieces, NameClause.renderAlias]
    exact clause_spells firm_alias hclause hl
  | set hclause =>
    rw [Expr.render, Expr.pieces, NameClause.renderSet]
    exact clause_spells firm_set hclause hl
  | list hlist =>
    rw [Expr.render, Expr.pieces]
    exact (listing_spells hlist hl).spells

/-- The pieces of an operation go on where those of its left operand end. -/
theorem operation_spells {power : Precedence} {left : Expr} (h : Operation R power left toks next e)
    (hl : Legible toks) (hleft : Spells left.render left.pieces) : Spells e.render e.pieces := by
  cases h with
  | @binary _ _ op _ _ _ _ hright =>
    have hright := (firm_operator op).spells_append (hs.spells hright hl.tail)
    have hspells := hleft.append (opens_blank.append _) (firm_blank.spells_append hright)
    rw [Expr.render, Expr.pieces]
    simp only [String.append_assoc] at hspells ⊢
    exact hspells
  | memberList _ _ hlist =>
    have hspells := hleft.append (opens_in.append _)
      (firm_in.append (listing_spells hlist hl.tail)).spells
    rw [Expr.render, Expr.pieces, Collection.render, Collection.pieces, String.append_assoc]
    exact hspells
  | memberSet _ _ hclause =>
    have hspells := hleft.append (opens_in.append _)
      (firm_in.spells_append (clause_spells firm_set hclause hl.tail))
    rw [Expr.render, Expr.pieces, Collection.render, Collection.pieces, String.append_assoc]
    exact hspells

omit hs in
theorem operation_starts {power : Precedence} {left : Expr} (h : Operation R power left toks next e)
    (hleft : ∃ p ps, left.pieces = p :: ps ∧ p.1.starts) :
    ∃ p ps, e.pieces = p :: ps ∧ p.1.starts := by
  obtain ⟨p, ps, hpieces, hp⟩ := hleft
  cases h <;> exact ⟨p, _, by rw [Expr.pieces, hpieces]; rfl, hp⟩

omit hs in
theorem primary_pieces_start (h : Primary gap R toks next e) :
    ∃ p ps, e.pieces = p :: ps ∧ p.1.starts := by
  cases h with
  | number hk _ =>
    refine ⟨_, _, rfl, ?_⟩
    rcases hk with hk | hk <;> rw [Token.piece, hk] <;> rfl
  | ident hn => exact ⟨_, _, rfl, by rw [Ident.piece, Token.piece, hn.kind]; rfl⟩
  | string hk => exact ⟨_, _, rfl, by rw [StringLiteral.piece, Token.piece, hk]; rfl⟩
  | @boolean _ _ value hk => cases value <;> exact ⟨_, _, rfl, rfl⟩
  | @unary _ _ op _ _ _ _ => cases op <;> exact ⟨_, _, rfl, rfl⟩
  | callUnit hk _ _ | call hk _ _ _ _ => exact ⟨_, _, rfl, by rw [Token.piece, hk]; rfl⟩
  | date _ _ | time _ _ | unit _ _ | paren _ _ _ | macroUnit _ _ _ _ _ | macroCall _ _ _ _ _ _
  | overClause _ _ _ | overAlias _ _ _ _ | filter _ _ | orderBy _ _ _ _ _
  | orderByDirection _ _ _ _ | label _ | set _ | list _ => exact ⟨_, _, rfl, rfl⟩

end Sub

section Levels

variable {gaps : Gaps}

theorem chain_spells {levels : Nat} (hs : SubSpelled (Expression gaps levels))
    (ih : ∀ {power left toks next e}, Chain gaps levels power left toks next e → Legible toks →
      Spells left.render left.pieces → Spells e.render e.pieces)
    {power : Precedence} {left e : Expr} {toks : List Token} {next : Token}
    (h : Chain gaps (levels + 1) power left toks next e) (hl : Legible toks)
    (hleft : Spells left.render left.pieces) : Spells e.render e.pieces := by
  rcases h with hstop | hgo
  · cases hstop
    exact hleft
  · cases hgo with
    | intro hop hchain => exact ih hchain hl.right (operation_spells hs hop hl.left hleft)

theorem chain_starts {levels : Nat} {power : Precedence} {left e : Expr} {toks : List Token}
    {next : Token} (h : Chain gaps levels power left toks next e)
    (hleft : ∃ p ps, left.pieces = p :: ps ∧ p.1.starts) :
    ∃ p ps, e.pieces = p :: ps ∧ p.1.starts := by
  induction levels generalizing left toks with
  | zero =>
    cases h
    exact hleft
  | succ levels ih =>
    rcases h with hstop | hgo
    · cases hstop
      exact hleft
    · cases hgo with
      | intro hop hchain => exact ih hchain (operation_starts hop hleft)

variable (hgaps : ∀ levels, SpelledGap (gaps levels))
include hgaps

theorem subSpelled_and_chain (levels : Nat) :
    SubSpelled (Expression gaps levels) ∧
      ∀ {power left toks next e}, Chain gaps levels power left toks next e → Legible toks →
        Spells left.render left.pieces → Spells e.render e.pieces := by
  induction levels with
  | zero =>
    refine ⟨⟨fun h => h.elim, fun h => h.elim⟩, fun h _ hleft => ?_⟩
    cases h
    exact hleft
  | succ levels ih =>
    refine ⟨⟨fun h hl => ?_, fun h => ?_⟩, fun h hl hleft => chain_spells ih.1 ih.2 h hl hleft⟩
    · cases h with
      | intro hprimary hchain =>
        exact ih.2 hchain hl.right (primary_spells ih.1 (hgaps levels) hprimary hl.left)
    · cases h with
      | intro hprimary hchain => exact chain_starts hchain (primary_pieces_start hprimary)

/-- What is printed for an expression of tokens that were read spells its pieces. -/
theorem expression_spells (levels : Nat) : SubSpelled (Expression gaps levels) :=
  (subSpelled_and_chain hgaps levels).1

end Levels

end PayFormula.Grammar
