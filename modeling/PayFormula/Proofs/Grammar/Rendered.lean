import PayFormula.Proofs.Grammar.Placeless
import PayFormula.Proofs.Grammar.RoundTrip
import PayFormula.Proofs.Grammar.Written
import PayFormula.Proofs.Reading.Limited

/-!
# Reading what is printed for a well-formed tree

What is printed for a well-formed tree is read as this tree, up to places, with
its marks and keywords spelled as they are printed. The one exception are trees
with too many levels of nesting, which are reported as such.

With enough levels the tokens of the text are a phrase for the tree, so the
expression at its start is read to the end of the text. The run with the levels
there are does the same or meets the limit. Where it meets the limit, the error is
reported.
-/
namespace PayFormula

open Filter Grammar Read

/-! ### Printed tokens and spelling -/

theorem Token.unplaced_printed {t : Token} (hm : ∀ m, t.kind ≠ .mark m)
    (hw : ∀ w, t.kind ≠ .keyword w) : t.printed.unplaced = t.unplaced := by
  rw [Token.printed_of_other hm hw]
  rfl

theorem NameClause.Formed.plain_printed {word : Keyword} {c : NameClause} (h : c.Formed word) :
    (c.map Token.printed).plain = c.plain := by
  rw [NameClause.map, NameClause.plain, Token.bare_printed, h.name.map_printed]
  rfl

theorem ListLiteral.Formed.plain_printed {l : ListLiteral} (h : l.Formed) :
    (l.map Token.printed).plain = l.plain := by
  rw [ListLiteral.map, ListLiteral.plain, Token.bare_printed, Token.bare_printed, List.map_map,
    ListLiteral.plain]
  refine congrArg (ListLiteral.mk _ · _) (List.map_congr_left fun s hs => ?_)
  rw [Function.comp_apply, (h.strings s hs).map_printed]
  rfl

theorem Collection.Formed.plain_printed {c : Collection} (h : c.Formed) :
    (c.map Token.printed).plain = c.plain := by
  cases c with
  | list l => exact congrArg Collection.list (ListLiteral.Formed.plain_printed h)
  | set c => exact congrArg Collection.set (NameClause.Formed.plain_printed h)

namespace Expr

theorem plainArgs_printed {args : List Expr}
    (h : ∀ arg ∈ args, (arg.map Token.printed).plain = arg.plain) :
    plainArgs (mapArgs Token.printed args) = plainArgs args := by
  rw [plainArgs_eq_map, plainArgs_eq_map, mapArgs_eq_map, List.map_map]
  exact List.map_congr_left h

theorem plainBindings_printed {bs : List Binding} (hframed : ∀ b ∈ bs, b.Framed)
    (h : ∀ b ∈ bs, (b.value.map Token.printed).plain = b.value.plain) :
    plainBindings (mapBindings Token.printed bs) = plainBindings bs := by
  rw [plainBindings_eq_map, plainBindings_eq_map, mapBindings_eq_map, List.map_map]
  apply List.map_congr_left
  intro b hb
  simp only [Function.comp_apply, BindingOf.map, BindingOf.plain, Token.bare_printed, h b hb,
    (hframed b hb).name.map_printed]
  rfl

/-- Printed tokens make no difference but in places and spelling. -/
theorem Formed.plain_printed {role : Role} {e : Expr} (h : e.Formed role) :
    (e.map Token.printed).plain = e.plain := by
  induction h with
  | @number t d _ hk =>
    rw [Expr.map, Expr.plain, Expr.plain, Token.unplaced_printed] <;>
      · intro x hx
        rw [hk] at hx
        split at hx <;> cases hx
  | string h =>
    rw [Expr.map, h.map_printed]
    rfl
  | ident h =>
    rw [Expr.map, h.map_printed]
    rfl
  | unit => simp only [Expr.map, Expr.plain, Token.bare_printed, mapBindings]
  | paren _ hframed _ _ _ ihb ihv =>
    simp only [Expr.map, Expr.plain, Token.bare_printed, plainBindings_printed hframed ihb, ihv]
  | list h => rw [Expr.map, Expr.plain, Expr.plain, h.plain_printed]
  | macroCall _ hname _ _ _ _ ih =>
    simp only [Expr.map, Expr.plain, Token.bare_printed, plainArgs_printed ih, hname.map_printed]
    rfl
  | call hk _ _ _ _ ih =>
    simp only [Expr.map, Expr.plain, Token.bare_printed, plainArgs_printed ih]
    rw [Token.unplaced_printed (by simp [hk]) (by simp [hk])]
  | member _ _ hc _ ih =>
    simp only [Expr.map, Expr.plain, Token.bare_printed, ih, hc.plain_printed]
  | @overClause t context aliased _ _ ha ih =>
    simp only [Expr.map, Expr.plain, Token.bare_printed, ih]
    cases aliased with
    | none => rfl
    | some clause => rw [Option.map, Option.map, Option.map, (ha clause rfl).plain_printed]
  | @orderBy t byToken key direction _ _ _ _ ih =>
    simp only [Expr.map, Expr.plain, Token.bare_printed, ih]
    cases direction with
    | none => rfl
    | some d =>
      rw [Option.map, Option.map, Option.map, OrderDirection.map, OrderDirection.plain,
        Token.bare_printed, OrderDirection.plain]
  | label h => rw [Expr.map, Expr.plain, Expr.plain, h.plain_printed]
  | set h => rw [Expr.map, Expr.plain, Expr.plain, h.plain_printed]
  | block _ hframed _ _ ihb ihv =>
    simp only [Expr.map, Expr.plain, plainBindings_printed hframed ihb, ihv]
  | argument _ ih | whole _ ih => exact ih
  | _ => simp only [Expr.map, Expr.plain, Token.bare_printed, *]

theorem Formed.render_printed {role : Role} {e : Expr} (h : e.Formed role) :
    (e.map Token.printed).render = e.render := by
  rw [← Expr.render_plain, h.plain_printed, Expr.render_plain]

theorem unplaced_printed (e : Expr) :
    (e.map Token.printed).map Token.unplaced = e.map Token.printed := by
  have htwice : Token.unplaced ∘ Token.printed = Token.printed := by
    funext t
    simp only [Function.comp_apply, Token.printed]
    split <;> rfl
  rw [Expr.map_map, htwice]

end Expr

/-! ### The tokens of the printed text -/

/-- Tokens are an expression in one way only. -/
theorem Grammar.expression_unique {levels : Nat} {toks : List Token} {next : Token} {e e' : Expr}
    (h : Expression Gaps.none levels .lowest toks next e)
    (h' : Expression Gaps.none levels .lowest toks next e') : e' = e := by
  have hc : (⟨toks, next, []⟩ : Cursor).rest = toks ++ [] := (List.append_nil toks).symm
  obtain ⟨-, c₁, hy, -⟩ := expression_consumed repeats_none h hc rfl
  obtain ⟨-, c₂, hy', -⟩ := expression_consumed repeats_none h' hc rfl
  cases hy.symm.trans hy'
  rfl

theorem unplaced_eq_of_pieces {toks toks' : List Token}
    (h : toks'.map Token.piece = toks.map Token.piece) :
    toks'.map Token.unplaced = toks.map Token.unplaced := by
  have hpiece : Token.unplaced = (fun p => unplacedToken p.1 p.2) ∘ Token.piece := rfl
  rw [hpiece, ← List.map_map, ← List.map_map, h]

/-- With enough levels the tokens that are printed are a phrase for the tree. -/
theorem Expr.Formed.expression_tokenize {e : Expr} (h : e.Formed .whole) {eof : Token}
    (heof : eof.kind = .eof) :
    ∃ more e', Expression Gaps.none (nestingLimit + more) .lowest (tokenize e.render) eof e' ∧
      e'.map Token.unplaced = e.map Token.printed := by
  obtain ⟨toks, hl, htoks, hphrase⟩ := h.written
  obtain ⟨more, hphrase⟩ := eventually_atTop.mp hphrase
  have hread := hphrase (nestingLimit + more) (Nat.le_add_left _ _) eof (by rw [heof]; rfl)
  have hspells := (expression_spells spelled_none (nestingLimit + more)).spells hread hl
  have hpieces : (tokenize e.render).map Token.piece = (e.map Token.printed).pieces := by
    have hreads := hspells.line (fun _ hd => by cases hd) .nil
    rw [List.append_nil, List.append_nil, h.render_printed] at hreads
    exact tokenize_pieces_eq hreads
  obtain ⟨e', hread', -⟩ :=
    (expression_reread (gapReread_none (f := .failed)) (nestingLimit + more)).reread hread hpieces
      (.inl rfl)
  refine ⟨more, e', hread', ?_⟩
  have hplaceless := expression_unplaced _ hread'
  rw [unplaced_eq_of_pieces (hpieces.trans htoks.symm)] at hplaceless
  rw [expression_unique (expression_unplaced _ hread) hplaceless, e.unplaced_printed]

/-! ### Meeting the limit -/

namespace Read

variable {c : Cursor}

/-- If the expression of a statement meets the limit, so does the statement. -/
theorem statement_meetsLimit (hk : c.current.kind.starts)
    (h : MeetsLimit (expression nestingLimit .lowest c)) : MeetsLimit (statement c) := by
  rw [statement_of_starts hk]
  apply h.bind
  intro value c₁ _
  rw [peek_bind_run]
  split <;> exact List.prefix_refl _

/-- A limit that was met is reported. -/
theorem statements_report_limit (steps : Nat) (hne : c.rest ≠ [])
    (hk : c.current.kind ≠ .mark .semicolon) (h : MeetsLimit (statement c)) :
    ∃ e ∈ (statements (steps + 1) c).2.errors, e.cause = .tooDeep := by
  rcases yields_or_fails statement c with ⟨s, c₁, hs⟩ | ⟨e, c₁, hs⟩
  · rw [hs] at h
    rw [statements_of_yields hne hk hs]
    rcases h with ⟨e, he, -⟩ | ⟨e, hmem, hcause⟩
    · cases he
    · exact ⟨e, (statements_errors steps c₁.step).subset hmem, hcause⟩
  · rw [hs] at h
    rw [statements_of_fails hne hk hs]
    have hlater := statements_errors steps (c₁.record e).synchronize
    rw [synchronize_errors] at hlater
    rcases h with ⟨e', he', hcause⟩ | ⟨e', hmem, hcause⟩
    · cases he'
      exact ⟨e, hlater.subset (List.mem_append_right _ List.mem_cons_self), hcause⟩
    · exact ⟨e', hlater.subset (List.mem_append_left _ hmem), hcause⟩

/-- Tokens that are an expression if there are more levels are read as this one statement, unless
the limit is reported. -/
theorem statements_of_expression {more : Nat} {e : Expr} (heof : c.eof.kind = .eof)
    (h : Expression Gaps.none (nestingLimit + more) .lowest c.rest c.eof e) :
    (∃ err ∈ (statements c.rest.length c).2.errors, err.cause = .tooDeep) ∨
      ∃ c', statements c.rest.length c = ([.expression e], c') ∧ c'.errors = c.errors := by
  have hrest : c.rest = c.rest ++ [] := (List.append_nil _).symm
  obtain ⟨hstarts, c₁, hy, hahead, -, herrors, -⟩ := expression_consumed repeats_none h hrest rfl
  obtain ⟨t, ts, htokens, -⟩ := expression_starts h
  have hne : c.rest ≠ [] := by
    rw [htokens]
    exact List.cons_ne_nil _ _
  have hk : c.current.kind ≠ .mark .semicolon := fun hk => by
    rw [hk] at hstarts
    cases hstarts
  have hlength : c.rest.length = ts.length + 1 := by rw [htokens, List.length_cons]
  rw [hlength]
  rcases (expression_limited nestingLimit more .lowest c).agrees with hagrees | hlimit
  · have hy' : Yields (expression nestingLimit .lowest) c e c₁ := hagrees.symm.trans hy
    have hsolid := (expression_solid repeats_none.solid (nestingLimit + more)).solid h
    obtain ⟨c₂, hs, hend, -, herrors'⟩ := last_ends_of_yields heof hsolid hstarts hy' hahead herrors
    refine .inr ⟨c₂.step, ?_, herrors' trivial⟩
    rw [statements_of_yields hne hk hs, statements_of_rest_nil hend]
  · exact .inl (statements_report_limit ts.length hne hk (statement_meetsLimit hstarts hlimit))

end Read

/-- What is printed for a well-formed tree is read without errors as one statement, which is the
tree up to places, with marks and keywords spelled as they are printed, unless an error reports that
it is nested too deep. -/
theorem parse_render_formed {e : Expr} (h : e.Formed .whole) :
    (∃ err ∈ (parse e.render).errors, err.cause = .tooDeep) ∨
      (parse e.render).errors = [] ∧
        ∃ e', (parse e.render).program.statements = [.expression e'] ∧
          e'.map Token.unplaced = e.map Token.printed := by
  have heof : (Token.endOf (LineIndex.ofString e.render)).kind = .eof := rfl
  obtain ⟨more, e', hphrase, htree⟩ := h.expression_tokenize heof
  rcases statements_of_expression
    (c := ⟨tokenize e.render, .endOf (LineIndex.ofString e.render), []⟩) heof hphrase with
    hlimit | ⟨c', hrun, herrors⟩
  · have hreported := (@parse_of_run e.render _ _ rfl).2
    rw [hreported]
    exact .inl hlimit
  · obtain ⟨hstatements, hreported⟩ := parse_of_run hrun
    exact .inr ⟨hreported.trans herrors, e', hstatements, htree⟩

/-- A block and a clause in an argument, and `in` in front of what binds more tightly. -/
theorem parse_render_formed_mixed :
    ∃ e : Expr, e.Formed .whole ∧
      e.render = "accrued(var x = 10; over x alias y) in [\"a\"] * -2" ∧
      (parse "accrued(var x = 10; over x alias y) in [\"a\"] * -2").errors = [] ∧
      ∃ e', (parse "accrued(var x = 10; over x alias y) in [\"a\"] * -2").program.statements =
        [.expression e'] ∧ e'.map Token.unplaced = e.map Token.printed := by
  -- all at once, for the kernel computes the names of the catalog anew in each proof
  obtain ⟨hxname, hyname, hbuiltin, herrors⟩ : validateName "x" = .ok () ∧
      validateName "y" = .ok () ∧ Catalog.isBuiltin "accrued" ∧
      (parse "accrued(var x = 10; over x alias y) in [\"a\"] * -2").errors = [] := by
    decide +kernel
  have hx : Ident.Formed ⟨unplacedToken .ident "x"⟩ := ⟨rfl, hxname⟩
  have hy : Ident.Formed ⟨unplacedToken .ident "y"⟩ := ⟨rfl, hyname⟩
  have hten : Expr.Formed .operand (.number (unplacedToken .int "10") (Decimal.toDouble ⟨10, 0⟩)) :=
    .number (by decide) (by decide)
  have htwo : Expr.Formed .operand (.number (unplacedToken .int "2") (Decimal.toDouble ⟨2, 0⟩)) :=
    .number (by decide) (by decide)
  have hbound : BindingOf.Framed ⟨unplacedKeyword .varWord, ⟨unplacedToken .ident "x"⟩,
      .number (unplacedToken .int "10") (Decimal.toDouble ⟨10, 0⟩), unplacedMark .semicolon⟩ :=
    ⟨rfl, hx, rfl⟩
  have halias : NameClause.Formed .aliasWord
      ⟨unplacedKeyword .aliasWord, ⟨unplacedToken .ident "y"⟩⟩ :=
    ⟨rfl, hy⟩
  have hover : Expr.Formed .whole (.overClause (unplacedKeyword .overWord)
      (.ident ⟨unplacedToken .ident "x"⟩)
      (some ⟨unplacedKeyword .aliasWord, ⟨unplacedToken .ident "y"⟩⟩)) :=
    .overClause rfl (.ident hx) (by simpa using halias)
  have hargument := Expr.Formed.block (List.cons_ne_nil _ []) (by simpa using hbound)
    (by simpa using Expr.Formed.whole hten) hover
  have hcall := Expr.Formed.call (t := unplacedToken .builtin "accrued")
    (l := unplacedMark .lparen) (r := unplacedMark .rparen) rfl hbuiltin rfl
    (List.forall_mem_singleton.mpr hargument) rfl
  have hstring : StringLiteral.Formed ⟨unplacedToken .string "a"⟩ := ⟨rfl, by decide⟩
  have hlist : Collection.Formed
      (.list ⟨unplacedMark .lbracket, [⟨unplacedToken .string "a"⟩], unplacedMark .rbracket⟩) :=
    ⟨rfl, List.forall_mem_singleton.mpr hstring, rfl⟩
  have hmember := Expr.Formed.member (t := unplacedKeyword .inWord) rfl hcall hlist trivial
  have hnegated : Expr.Formed .operand (.unary (unplacedMark .minus) .negate _) :=
    .unary rfl htwo rfl
  have hproduct : Expr.Formed .operand (.binary (unplacedMark .asterisk) _ .mul _) :=
    .binary rfl hmember hnegated ⟨trivial, List.forall_mem_nil _⟩
  obtain ⟨e, hformed, hrender⟩ : ∃ e : Expr, e.Formed .whole ∧
      e.render = "accrued(var x = 10; over x alias y) in [\"a\"] * -2" :=
    ⟨_, .whole hproduct, by decide +kernel⟩
  have hread := parse_render_formed hformed
  rw [hrender, herrors] at hread
  rcases hread with ⟨err, hmem, -⟩ | ⟨-, hread⟩
  · cases hmem
  · exact ⟨e, hformed, hrender, herrors, hread⟩

end PayFormula
