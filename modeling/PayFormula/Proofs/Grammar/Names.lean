import PayFormula.Proofs.Grammar.Program
import PayFormula.Proofs.Tree.Names

/-!
# The names that are read

The identifiers of a tree are identifier tokens of the text, in their order and
each taken once. Where nothing is passed over, these are all of them.
-/
namespace PayFormula

/-- Which of some tokens the identifiers of a tree are. -/
structure Named (lax : Prop) (toks : List Token) (names : List Ident) : Prop where
  sublist : (names.map Ident.token).Sublist (toks.filter (·.kind = .ident))
  all : ¬ lax → names.map Ident.token = toks.filter (·.kind = .ident)
  valid : ∀ i ∈ names, i.token.IsName

namespace Named

variable {lax : Prop} {toks toks' : List Token} {names names' : List Ident} {t : Token}

theorem nil : Named lax [] [] := ⟨.slnil, fun _ => rfl, fun i hi => by cases hi⟩

theorem append (h : Named lax toks names) (h' : Named lax toks' names') :
    Named lax (toks ++ toks') (names ++ names') where
  sublist := by
    rw [List.map_append, List.filter_append]
    exact h.sublist.append h'.sublist
  all hlax := by rw [List.map_append, List.filter_append, h.all hlax, h'.all hlax]
  valid i hi := (List.mem_append.mp hi).elim (h.valid i) (h'.valid i)

/-- A token of another kind is no name. -/
theorem other {kind : TokenKind} (ht : t.kind = kind) (hk : decide (kind = .ident) = false)
    (h : Named lax toks names) : Named lax (t :: toks) names := by
  have hfilter : (t :: toks).filter (·.kind = .ident) = toks.filter (·.kind = .ident) := by
    rw [List.filter_cons, ht, if_neg (ne_true_of_eq_false hk)]
  exact ⟨hfilter ▸ h.sublist, hfilter ▸ h.all, h.valid⟩

theorem cons (ht : t.IsName) (h : Named lax toks names) :
    Named lax (t :: toks) (⟨t⟩ :: names) := by
  have hfilter : (t :: toks).filter (·.kind = .ident) = t :: toks.filter (·.kind = .ident) := by
    rw [List.filter_cons, if_pos (by simpa using ht.kind)]
  refine ⟨?_, fun hlax => ?_, List.forall_mem_cons.mpr ⟨ht, h.valid⟩⟩
  · rw [hfilter, List.map_cons]
    exact h.sublist.cons_cons t
  · rw [hfilter, List.map_cons, h.all hlax]

/-- Tokens that are passed over have no names. -/
theorem passed (hlax : lax) (toks : List Token) : Named lax toks [] :=
  ⟨List.nil_sublist _, fun h => absurd hlax h, fun i hi => by cases hi⟩

theorem single {kind : TokenKind} (ht : t.kind = kind) (hk : decide (kind = .ident) = false) :
    Named lax [t] [] := .other ht hk .nil

/-- A token behind those that are read. -/
theorem closed {kind : TokenKind} (h : Named lax toks names) (ht : t.kind = kind)
    (hk : decide (kind = .ident) = false) : Named lax (toks ++ [t]) names := by
  have hall := h.append (.single ht hk)
  rwa [List.append_nil] at hall

/-- Comments have no names. -/
theorem between {before after : List Token} {names names' : List Ident}
    (hb : Between before toks after) (h : Named lax toks names) (h' : Named lax after names') :
    Named lax before (names ++ names') := by
  obtain ⟨raw, rfl, rfl⟩ := hb
  have hfilter : (raw.filter (!·.kind.isComment)).filter (·.kind = .ident) =
      raw.filter (·.kind = .ident) := by
    rw [List.filter_filter]
    refine List.filter_congr fun t _ => ?_
    cases hk : t.kind <;> rfl
  have hraw : Named lax raw names := ⟨hfilter ▸ h.sublist, hfilter ▸ h.all, h.valid⟩
  exact hraw.append h'

end Named

namespace Grammar

open Node

variable {lax : Prop} {toks : List Token} {next : Token}

theorem names_expr {e : Expr} (h : (Node.expr e).ident? = none) :
    (Node.expr e).names = e.children.flatMap names := names_of_ident?_none h

theorem names_strings (strings : List StringLiteral) :
    (strings.map Node.string).flatMap names = [] := by
  rw [List.flatMap_eq_nil_iff]
  intro node hnode
  obtain ⟨s, -, rfl⟩ := List.mem_map.mp hnode
  exact names_of_ident?_none rfl

theorem names_list (l : ListLiteral) : (Node.list l).names = [] := by
  rw [names_of_ident?_none rfl, children, names_strings]

theorem names_label (c : NameClause) : (Node.label c).names = [c.name] := by
  rw [names_of_ident?_none rfl, children, List.flatMap_singleton, names_of_ident? rfl]

theorem names_set (c : NameClause) : (Node.set c).names = [c.name] := by
  rw [names_of_ident?_none rfl, children, List.flatMap_singleton, names_of_ident? rfl]

theorem names_comment (c : Comment) : (Node.comment c).names = [] := names_of_ident?_none rfl

theorem clause_named {word : Keyword} {c : NameClause} (h : Clause word toks next c) :
    Named lax toks [c.name] := by
  cases h with
  | intro ht hn => exact .other ht rfl (.cons hn .nil)

theorem strings_named {strings : List StringLiteral} (h : Strings toks strings) :
    Named lax toks [] := by
  induction h with
  | nil => exact .nil
  | last hs => exact .single hs rfl
  | cons hs hcomma _ ih => exact .other hs rfl (.other hcomma rfl ih)

theorem listing_named {l : ListLiteral} (h : Listing toks next l) : Named lax toks [] := by
  cases h with
  | intro hl hstrings hr => exact .other hl rfl ((strings_named hstrings).closed hr rfl)

theorem items_named {item : Phrase Expr} {stop : Token} {as : List Expr}
    (hitem : ∀ {toks stop a}, item toks stop a → Named lax toks (Node.expr a).names)
    (h : Items item toks stop as) : Named lax toks ((as.map .expr).flatMap names) := by
  induction h with
  | last ha =>
    rw [List.map_singleton, List.flatMap_singleton]
    exact hitem ha
  | cons ha hcomma _ ih =>
    rw [List.map_cons, List.flatMap_cons]
    exact (hitem ha).append (.other hcomma rfl ih)

section Sub

/-- The names of expressions are those of their tokens. -/
def SubNamed (lax : Prop) (sub : SubPhrase) : Prop :=
  ∀ {power : Precedence} {toks : List Token} {next : Token} {e : Expr},
    sub power toks next e → Named lax toks (Node.expr e).names

variable {gap : Phrase SyntaxError} {sub : SubPhrase} (hsub : SubNamed lax sub) {e : Expr}
include hsub

theorem bound_named {b : Binding} (h : Bound sub toks b) :
    Named lax toks (Node.binding b).names := by
  cases h with
  | intro ht hn heq hv hsemi =>
    rw [names_of_ident?_none rfl, children, List.flatMap_cons, List.flatMap_singleton,
      names_of_ident? rfl]
    exact .other ht rfl (.cons hn (.other heq rfl ((hsub hv).closed hsemi rfl)))

theorem bounds_named {bs : List Binding} (h : Bounds sub toks bs) :
    Named lax toks ((bs.map .binding).flatMap names) := by
  induction h with
  | nil => exact .nil
  | cons hb _ ih =>
    rw [List.map_cons, List.flatMap_cons]
    exact (bound_named hsub hb).append ih

theorem blocks_named {b : Block} (h : Blocks sub toks next b) :
    Named lax toks (b.children.flatMap names) := by
  cases h with
  | intro hbs hv =>
    rw [BlockOf.children, List.flatMap_append, List.flatMap_singleton]
    exact (bounds_named hsub hbs).append (hsub hv)

variable (hgap : ∀ toks stop e, gap toks stop e → lax)
include hgap

theorem argument_named {stop : Token} (h : Argument gap sub toks stop e) :
    Named lax toks (Node.expr e).names := by
  cases h with
  | value hv => exact hsub hv
  | block hb _ =>
    rw [names_expr rfl]
    exact blocks_named hsub hb
  | failed hpassed _ =>
    rw [names_expr rfl]
    exact .passed (hgap _ _ _ hpassed) _

theorem primary_named (h : Primary gap sub toks next e) : Named lax toks (Node.expr e).names := by
  cases h with
  | ident hn =>
    rw [names_of_ident? rfl]
    exact .cons hn .nil
  | number hk _ =>
    rw [names_expr rfl]
    rcases hk with hk | hk <;> exact .single hk rfl
  | string hk | boolean hk | date hk _ | time hk _ =>
    rw [names_expr rfl]
    exact .single hk rfl
  | unary hk ho =>
    rw [names_expr rfl, Expr.children, List.flatMap_singleton]
    exact .other hk rfl (hsub ho)
  | unit hl hr =>
    have hblank (t : Token) : (Node.expr (.blank t)).names = [] := names_expr rfl
    have hblock (t : Token) : (Node.block ⟨[], .blank t⟩).names = [] := by
      rw [names_of_ident?_none rfl, children, BlockOf.children, List.map_nil, List.nil_append,
        List.flatMap_singleton, hblank]
    rw [names_expr rfl, Expr.children, List.flatMap_singleton, hblock]
    exact .other hl rfl (.single hr rfl)
  | paren hl hb hr =>
    rw [names_expr rfl, Expr.children, List.flatMap_singleton, names_of_ident?_none rfl]
    exact .other hl rfl ((blocks_named hsub hb).closed hr rfl)
  | macroUnit hd hn hl hr hclosing =>
    rw [names_expr rfl, Expr.children, List.map_nil, List.flatMap_singleton, names_of_ident? rfl]
    exact .other hd rfl (.cons hn (.other hl rfl (.other hr rfl (.single hclosing rfl))))
  | macroCall hd hn hl hargs hr hclosing =>
    rw [names_expr rfl, Expr.children, List.flatMap_cons, names_of_ident? rfl]
    have hall := ((items_named hsub hargs).closed hr rfl).closed hclosing rfl
    rw [List.append_assoc] at hall
    exact .other hd rfl (.cons hn (.other hl rfl hall))
  | callUnit hk hl hr =>
    rw [names_expr rfl]
    exact .other hk rfl (.other hl rfl (.single hr rfl))
  | call hk hl _ hargs hr =>
    rw [names_expr rfl]
    have hargs' := (items_named (argument_named hsub hgap) hargs).closed hr rfl
    exact .other hk rfl (.other hl rfl hargs')
  | overClause hk he _ =>
    rw [names_expr rfl, Expr.children, Option.toList_none, List.map_nil, List.flatMap_singleton]
    exact .other hk rfl (hsub he)
  | overAlias hk he ha hn =>
    rw [names_expr rfl, Expr.children, Option.toList_some, List.map_singleton, List.flatMap_cons,
      List.flatMap_singleton, names_label]
    exact .other hk rfl ((hsub he).append (.other ha rfl (.cons hn .nil)))
  | filter hk he =>
    rw [names_expr rfl, Expr.children, List.flatMap_singleton]
    exact .other hk rfl (hsub he)
  | orderBy hk hby he _ _ =>
    rw [names_expr rfl, Expr.children, List.flatMap_singleton]
    exact .other hk rfl (.other hby rfl (hsub he))
  | orderByDirection hk hby he hd =>
    rw [names_expr rfl, Expr.children, List.flatMap_singleton]
    exact .other hk rfl (.other hby rfl ((hsub he).closed hd rfl))
  | label hc | set hc =>
    rw [names_expr rfl, Expr.children, List.flatMap_singleton, names_of_ident? rfl]
    exact clause_named hc
  | list hl =>
    rw [names_expr rfl, Expr.children, names_strings]
    exact listing_named hl

omit hgap in
/-- An operator adds the names of its right operand to those of its left one. -/
theorem operation_named {power : Precedence} {left : Expr}
    (h : Operation sub power left toks next e) {front : List Token}
    (hl : Named lax front (Node.expr left).names) :
    Named lax (front ++ toks) (Node.expr e).names := by
  cases h with
  | binary hk _ hr =>
    rw [names_expr rfl, Expr.children, List.flatMap_cons, List.flatMap_singleton]
    exact hl.append (.other hk rfl (hsub hr))
  | memberList hk _ hlist =>
    rw [names_expr rfl, Expr.children, List.flatMap_cons, List.flatMap_singleton, Collection.node,
      names_list]
    exact hl.append (.other hk rfl (listing_named hlist))
  | memberSet hk _ hc =>
    rw [names_expr rfl, Expr.children, List.flatMap_cons, List.flatMap_singleton, Collection.node,
      names_set]
    exact hl.append (.other hk rfl (clause_named hc))

end Sub

section Levels

variable {gaps : Gaps}

theorem chain_named {n : Nat} (hsub : ∀ k < n, SubNamed lax (Expression gaps k))
    {power : Precedence} {left e : Expr} {front : List Token}
    (h : Chain gaps n power left toks next e) (hl : Named lax front (Node.expr left).names) :
    Named lax (front ++ toks) (Node.expr e).names := by
  induction n generalizing left front toks with
  | zero =>
    cases h
    rwa [List.append_nil]
  | succ n ih =>
    rcases h with h | h
    · cases h
      rwa [List.append_nil]
    · cases h with
      | intro hop hrest =>
        rw [← List.append_assoc]
        have hleft := operation_named (hsub n n.lt_succ_self) hop hl
        exact ih (fun k hk => hsub k (hk.trans n.lt_succ_self)) hrest hleft

variable (hgaps : ∀ levels toks stop e, gaps levels toks stop e → lax)
include hgaps

theorem expression_named (levels : Nat) : SubNamed lax (Expression gaps levels) := by
  induction levels using Nat.strong_induction_on with
  | _ levels ih =>
    intro power toks next e h
    cases levels with
    | zero => exact h.elim
    | succ levels =>
      cases h with
      | intro hp hc =>
        have hleft := primary_named (ih levels levels.lt_succ_self) (hgaps levels) hp
        exact chain_named (fun k hk => ih k (hk.trans levels.lt_succ_self)) hc hleft

theorem lines_named {eof : Token} {tokens : List Token} {ss : List Statement}
    (h : Lines lax gaps eof tokens ss) :
    Named lax tokens ((ss.map Statement.node).flatMap names) := by
  induction h with
  | nil => exact .nil
  | skip ht _ ih =>
    rcases ht with hlax | ht
    · exact (Named.passed hlax [_]).append ih
    · exact .other ht rfl ih
  | lineComment hk _ ih | blockComment hk _ ih =>
    rw [List.map_cons, List.flatMap_cons, Statement.node, names_comment]
    exact .other hk rfl ih
  | binding hb hbound _ ih => exact (bound_named (expression_named hgaps _) hbound).between hb ih
  | expression hb he _ ih => exact (expression_named hgaps _ he).between hb ih
  | ended hb he hb' hk _ ih =>
    exact (expression_named hgaps _ he).between hb ((Named.single hk rfl).between hb' ih)

end Levels

end Grammar

open Grammar

/-- The identifiers of the tree of a text are identifier tokens of it. -/
theorem parse_named (source : String) :
    Named True (tokenize source) (Node.program (parse source).program).names := by
  rw [Node.names_of_ident?_none rfl]
  exact lines_named (fun _ _ _ _ _ => trivial) (parse_lines source)

/-- If the text has no errors, they are all of them. -/
theorem parse_named_strict {source : String} (h : (parse source).errors = []) :
    (Node.program (parse source).program).names.map Ident.token =
      (tokenize source).filter (·.kind = .ident) := by
  rw [Node.names_of_ident?_none rfl]
  exact (lines_named (fun _ _ _ _ => id) (parse_lines_strict h)).all id

end PayFormula
