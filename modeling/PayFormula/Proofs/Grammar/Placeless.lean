import PayFormula.Proofs.Grammar
import PayFormula.Proofs.Tree.Mapped
import PayFormula.Proofs.Tree.Plain

/-!
# Phrases without places

What tokens are taken for does not depend on where they stand. Without their
places the tokens of a strict phrase are one for the tree without places.
-/
namespace PayFormula

theorem Token.IsName.unplaced {t : Token} (h : t.IsName) : t.unplaced.IsName :=
  ⟨h.kind, h.nonempty, h.not_blank, h.not_reserved⟩

namespace Grammar

variable {toks : List Token} {next : Token} {e : Expr}

theorem clause_unplaced {word : Keyword} {c : NameClause} (h : Clause word toks next c) :
    Clause word (toks.map Token.unplaced) next.unplaced (c.map Token.unplaced) := by
  cases h with
  | intro hk hn => exact .intro hk hn.unplaced

theorem strings_unplaced {ss : List StringLiteral} (h : Strings toks ss) :
    Strings (toks.map Token.unplaced) (ss.map (·.map Token.unplaced)) := by
  induction h with
  | nil => exact .nil
  | last hk => exact .last hk
  | cons hk hcomma _ ih => exact .cons hk hcomma ih

theorem listing_unplaced {l : ListLiteral} (h : Listing toks next l) :
    Listing (toks.map Token.unplaced) next.unplaced (l.map Token.unplaced) := by
  cases h with
  | intro hl hs hr =>
    rw [List.map_append]
    exact .intro hl (strings_unplaced hs) hr

/-- The phrases go along when the places are left out. -/
def Placeless (phrase : Phrase Expr) : Prop :=
  ∀ {toks next e}, phrase toks next e →
    phrase (toks.map Token.unplaced) next.unplaced (e.map Token.unplaced)

theorem items_unplaced {item : Phrase Expr} (hitem : Placeless item) {args : List Expr}
    (h : Items item toks next args) :
    Items item (toks.map Token.unplaced) next.unplaced (args.map (Expr.map Token.unplaced)) := by
  induction h with
  | last h => exact .last (hitem h)
  | cons h hcomma _ ih =>
    rw [List.map_append]
    exact .cons (hitem h) hcomma ih

theorem headD_unplaced (back : List Token) :
    (back.map Token.unplaced).headD next.unplaced = (back.headD next).unplaced := List.headD_map

section Sub

variable {sub : SubPhrase} (hs : ∀ power, Placeless (sub power))
include hs

theorem bound_unplaced {b : Binding} (h : Bound sub toks b) :
    Bound sub (toks.map Token.unplaced) (b.map Token.unplaced) := by
  cases h with
  | intro hk hn heq hvalue hsemi =>
    rw [List.map_append]
    exact .intro hk hn.unplaced heq (hs _ hvalue) hsemi

theorem bounds_unplaced {bs : List Binding} (h : Bounds sub toks bs) :
    Bounds sub (toks.map Token.unplaced) (bs.map (BindingOf.map Token.unplaced)) := by
  induction h with
  | nil => exact .nil
  | cons hb _ ih =>
    rw [List.map_append]
    exact .cons (bound_unplaced hs hb) ih

theorem blocks_unplaced {b : Block} (h : Blocks sub toks next b) :
    Blocks sub (toks.map Token.unplaced) next.unplaced (b.map Token.unplaced) := by
  cases h with
  | intro hbs hvalue =>
    rw [List.map_append]
    exact .intro (bounds_unplaced hs hbs) (hs _ hvalue)

theorem argument_unplaced (levels : Nat) : Placeless (Argument (Gaps.none levels) sub) := by
  intro toks next e h
  cases h with
  | value h => exact .value (hs _ h)
  | block hb hne =>
    rw [Expr.map_block]
    exact .block (blocks_unplaced hs hb) (by simpa [BlockOf.map] using hne)
  | failed hpassed _ => exact hpassed.elim

theorem primary_unplaced (levels : Nat) : Placeless (Primary (Gaps.none levels) sub) := by
  intro toks next e h
  cases h with
  | number hk hd =>
    rw [Expr.map]
    exact .number hk hd
  | ident hn =>
    rw [Expr.map]
    exact .ident hn.unplaced
  | string hk =>
    rw [Expr.map]
    exact .string hk
  | boolean hk =>
    rw [Expr.map]
    exact .boolean hk
  | date hk hd =>
    rw [Expr.map]
    exact .date hk hd
  | time hk hc =>
    rw [Expr.map]
    exact .time hk hc
  | unary hk ho =>
    rw [Expr.map]
    exact .unary hk (hs _ ho)
  | unit hl hr =>
    rw [Expr.map_paren, BlockOf.map, Expr.map]
    exact .unit hl hr
  | paren hl hb hr =>
    rw [Expr.map_paren, List.map_append]
    exact .paren hl (blocks_unplaced hs hb) hr
  | macroUnit hd hn hl hr hc =>
    rw [Expr.map, mapArgs]
    exact .macroUnit hd hn.unplaced hl hr hc
  | macroCall hd hn hl hargs hr hc =>
    rw [Expr.map, mapArgs_eq_map, List.map_append]
    exact .macroCall hd hn.unplaced hl (items_unplaced (hs _) hargs) hr hc
  | callUnit hk hl hr =>
    rw [Expr.map, mapArgs]
    exact .callUnit hk hl hr
  | call hk hl hopen hargs hr =>
    rw [Expr.map, mapArgs_eq_map, List.map_append]
    refine .call hk hl ?_ (items_unplaced (argument_unplaced hs levels) hargs) hr
    rwa [headD_unplaced]
  | overClause hk hc hnext =>
    rw [Expr.map]
    exact .overClause hk (hs _ hc) hnext
  | overAlias hk hc ha hn =>
    rw [Expr.map, List.map_append]
    exact .overAlias hk (hs _ hc) ha hn.unplaced
  | filter hk hc =>
    rw [Expr.map]
    exact .filter hk (hs _ hc)
  | orderBy hk hby hkey hasc hdesc =>
    rw [Expr.map]
    exact .orderBy hk hby (hs _ hkey) hasc hdesc
  | orderByDirection hk hby hkey hd =>
    rw [Expr.map, List.map_append]
    exact .orderByDirection hk hby (hs _ hkey) hd
  | label hc =>
    rw [Expr.map]
    exact .label (clause_unplaced hc)
  | set hc =>
    rw [Expr.map]
    exact .set (clause_unplaced hc)
  | list hl =>
    rw [Expr.map]
    exact .list (listing_unplaced hl)

theorem operation_unplaced {power : Precedence} {left : Expr}
    (h : Operation sub power left toks next e) :
    Operation sub power (left.map Token.unplaced) (toks.map Token.unplaced) next.unplaced
      (e.map Token.unplaced) := by
  cases h with
  | binary hk hpower hright =>
    rw [Expr.map]
    exact .binary hk hpower (hs _ hright)
  | memberList hk hpower hl =>
    rw [Expr.map]
    exact .memberList hk hpower (listing_unplaced hl)
  | memberSet hk hpower hc =>
    rw [Expr.map]
    exact .memberSet hk hpower (clause_unplaced hc)

end Sub

theorem expression_and_chain_unplaced (levels : Nat) :
    (∀ power, Placeless (Expression Gaps.none levels power)) ∧
      ∀ {power left toks next e}, Chain Gaps.none levels power left toks next e →
        Chain Gaps.none levels power (left.map Token.unplaced) (toks.map Token.unplaced)
          next.unplaced (e.map Token.unplaced) := by
  induction levels with
  | zero =>
    refine ⟨fun power _ _ _ h => h.elim, fun h => ?_⟩
    cases h with
    | intro hstop => exact .intro hstop
  | succ levels ih =>
    refine ⟨fun power toks next e h => ?_, fun h => ?_⟩
    · cases h with
      | intro hprimary hchain =>
        have hprimary := primary_unplaced ih.1 levels hprimary
        rw [← headD_unplaced] at hprimary
        rw [List.map_append]
        exact .intro hprimary (ih.2 hchain)
    · rcases h with hstop | hgo
      · cases hstop with
        | intro hstop => exact .inl (.intro hstop)
      · cases hgo with
        | intro hop hchain =>
          have hop := operation_unplaced ih.1 hop
          rw [← headD_unplaced] at hop
          rw [List.map_append]
          exact .inr (.intro hop (ih.2 hchain))

theorem expression_unplaced {levels : Nat} (power : Precedence) :
    Placeless (Expression Gaps.none levels power) :=
  (expression_and_chain_unplaced levels).1 power

end Grammar

end PayFormula
