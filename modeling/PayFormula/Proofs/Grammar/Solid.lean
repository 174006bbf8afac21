import PayFormula.Proofs.Grammar
import PayFormula.Proofs.Reading.Between

/-!
# Phrases have no comments

Comments stand between the tokens of a phrase and are none of them, if what is
passed over has none.
-/
namespace PayFormula

/-- No token is a comment or the end of a text. -/
def Solid (toks : List Token) : Prop := ∀ t ∈ toks, t.kind.isSolid

namespace Solid

variable {t : Token} {front back : List Token}

@[simp] theorem nil : Solid [] := fun _ ht => by cases ht

@[simp] theorem cons_iff : Solid (t :: back) ↔ t.kind.isSolid ∧ Solid back := by
  simp [Solid]

@[simp] theorem append_iff : Solid (front ++ back) ↔ Solid front ∧ Solid back := by
  simp only [Solid, List.mem_append, or_imp, forall_and]

theorem filter_eq (h : Solid front) (back : List Token) :
    (front ++ back).filter (!·.kind.isComment) = front ++ back.filter (!·.kind.isComment) := by
  rw [List.filter_append, List.filter_eq_self.mpr]
  intro t ht
  simp [TokenKind.not_isComment_of_isSolid (h t ht)]

end Solid

namespace Grammar

theorem isSolid_of_kind {t : Token} {kind : TokenKind} (h : t.kind = kind)
    (hk : kind.isSolid) : t.kind.isSolid := h ▸ hk

theorem name_isSolid {n : Token} (h : n.IsName) : n.kind.isSolid := isSolid_of_kind h.kind rfl

variable {toks : List Token} {next : Token}

theorem clause_solid {word : Keyword} {c : NameClause} (h : Clause word toks next c) :
    Solid toks := by
  cases h with
  | intro hk hn => simp [isSolid_of_kind hk rfl, name_isSolid hn]

theorem strings_solid {ss : List StringLiteral} (h : Strings toks ss) : Solid toks := by
  induction h with
  | nil => exact .nil
  | last hs => simp [isSolid_of_kind hs rfl]
  | cons hs hcomma _ ih => simp [isSolid_of_kind hs rfl, isSolid_of_kind hcomma rfl, ih]

theorem listing_solid {l : ListLiteral} (h : Listing toks next l) : Solid toks := by
  cases h with
  | intro hl hstrings hr =>
    simp [isSolid_of_kind hl rfl, strings_solid hstrings, isSolid_of_kind hr rfl]

section Sub

/-- Expressions without comments. -/
structure SubSolid (R : SubPhrase) : Prop where
  solid : ∀ {power toks next e}, R power toks next e → Solid toks

variable {R : SubPhrase} (hs : SubSolid R) {e : Expr}
include hs

theorem bound_solid {b : Binding} (h : Bound R toks b) : Solid toks := by
  cases h with
  | intro ht hn heq hv hsemi =>
    simp [isSolid_of_kind ht rfl, name_isSolid hn, isSolid_of_kind heq rfl, hs.solid hv,
      isSolid_of_kind hsemi rfl]

theorem bounds_solid {bs : List Binding} (h : Bounds R toks bs) : Solid toks := by
  induction h with
  | nil => exact .nil
  | cons hb _ ih => exact Solid.append_iff.mpr ⟨bound_solid hs hb, ih⟩

theorem blocks_solid {b : Block} (h : Blocks R toks next b) : Solid toks := by
  cases h with
  | intro hbs hv => exact Solid.append_iff.mpr ⟨bounds_solid hs hbs, hs.solid hv⟩

omit hs in
theorem items_solid {item : Phrase Expr} (hitem : ∀ {toks stop e}, item toks stop e → Solid toks)
    {stop : Token} {args : List Expr} (h : Items item toks stop args) : Solid toks := by
  induction h with
  | last ha => exact hitem ha
  | cons ha hcomma _ ih => simp [hitem ha, isSolid_of_kind hcomma rfl, ih]

variable {gap : Phrase SyntaxError} (hgap : ∀ toks stop e, gap toks stop e → Solid toks)

include hgap in
theorem argument_solid {stop : Token} (h : Argument gap R toks stop e) : Solid toks := by
  cases h with
  | value hv => exact hs.solid hv
  | block hb _ => exact blocks_solid hs hb
  | failed hpassed _ => exact hgap _ _ _ hpassed

include hgap in
theorem primary_solid (h : Primary gap R toks next e) : Solid toks := by
  cases h with
  | number hk _ => rcases hk with hk | hk <;> simp [isSolid_of_kind hk rfl]
  | ident hn => simp [name_isSolid hn]
  | string hk | date hk _ | time hk _ => simp [isSolid_of_kind hk rfl]
  | boolean hk => simp [isSolid_of_kind hk rfl]
  | unary hk ho => simp [isSolid_of_kind hk rfl, hs.solid ho]
  | unit hl hr => simp [isSolid_of_kind hl rfl, isSolid_of_kind hr rfl]
  | paren hl hb hr => simp [isSolid_of_kind hl rfl, blocks_solid hs hb, isSolid_of_kind hr rfl]
  | macroUnit hd hn hl hr hc =>
    simp [isSolid_of_kind hd rfl, name_isSolid hn, isSolid_of_kind hl rfl, isSolid_of_kind hr rfl,
      isSolid_of_kind hc rfl]
  | macroCall hd hn hl hargs hr hc =>
    simp [isSolid_of_kind hd rfl, name_isSolid hn, isSolid_of_kind hl rfl,
      items_solid hs.solid hargs, isSolid_of_kind hr rfl, isSolid_of_kind hc rfl]
  | callUnit hk hl hr =>
    simp [isSolid_of_kind hk rfl, isSolid_of_kind hl rfl, isSolid_of_kind hr rfl]
  | call hk hl _ hargs hr =>
    simp [isSolid_of_kind hk rfl, isSolid_of_kind hl rfl, isSolid_of_kind hr rfl,
      items_solid (argument_solid hs hgap) hargs]
  | overClause hk hcontext _ => simp [isSolid_of_kind hk rfl, hs.solid hcontext]
  | overAlias hk hcontext ha hn =>
    simp [isSolid_of_kind hk rfl, hs.solid hcontext, isSolid_of_kind ha rfl, name_isSolid hn]
  | filter hk hcondition => simp [isSolid_of_kind hk rfl, hs.solid hcondition]
  | orderBy hk hword hkey _ _ =>
    simp [isSolid_of_kind hk rfl, isSolid_of_kind hword rfl, hs.solid hkey]
  | orderByDirection hk hword hkey hd =>
    simp [isSolid_of_kind hk rfl, isSolid_of_kind hword rfl, hs.solid hkey, isSolid_of_kind hd rfl]
  | label hclause | set hclause => exact clause_solid hclause
  | list hlist => exact listing_solid hlist

theorem operation_solid {power : Precedence} {left : Expr}
    (h : Operation R power left toks next e) :
    Solid toks := by
  cases h with
  | binary hk _ hright => simp [isSolid_of_kind hk rfl, hs.solid hright]
  | memberList hk _ hlist => simp [isSolid_of_kind hk rfl, listing_solid hlist]
  | memberSet hk _ hclause => simp [isSolid_of_kind hk rfl, clause_solid hclause]

end Sub

section Levels

variable {gaps : Gaps} (hgaps : ∀ levels toks stop e, gaps levels toks stop e → Solid toks)
include hgaps

theorem subSolid_and_chain (levels : Nat) :
    SubSolid (Expression gaps levels) ∧
      ∀ {power left toks next e}, Chain gaps levels power left toks next e → Solid toks := by
  induction levels with
  | zero =>
    refine ⟨⟨fun h => h.elim⟩, fun h => ?_⟩
    cases h
    exact .nil
  | succ levels ih =>
    refine ⟨⟨fun h => ?_⟩, fun h => ?_⟩
    · cases h with
      | intro hprimary hchain =>
        exact Solid.append_iff.mpr ⟨primary_solid ih.1 (hgaps levels) hprimary, ih.2 hchain⟩
    · rcases h with hstop | hgo
      · cases hstop
        exact .nil
      · cases hgo with
        | intro hop hchain =>
          exact Solid.append_iff.mpr ⟨operation_solid ih.1 hop, ih.2 hchain⟩

/-- No token of an expression is a comment. -/
theorem expression_solid (levels : Nat) : SubSolid (Expression gaps levels) :=
  (subSolid_and_chain hgaps levels).1

end Levels

end Grammar

end PayFormula
