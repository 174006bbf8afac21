import PayFormula.Proofs.Grammar.Program
import PayFormula.Proofs.Reading.Continued
import PayFormula.Proofs.Reading.Mirrored
import PayFormula.Proofs.Token.Joined

/-!
# Programs put together at a semicolon

A text without errors whose last token is a semicolon means the same when more
lines follow, and these mean what they mean alone, only further down. No
statement of the text looks behind its end: no expression ends in a semicolon,
and a semicolon ends every binding.
-/
namespace PayFormula

namespace Grammar

open Read

/-- The last token, if there is one, is no semicolon. -/
def Unended (toks : List Token) : Prop := ∀ t ∈ toks.getLast?, t.kind ≠ .mark .semicolon

namespace Unended

variable {t : Token} {front back : List Token}

theorem nil : Unended [] := fun _ ht => by cases ht

theorem append (h : Unended front) (h' : Unended back) : Unended (front ++ back) := by
  intro t ht
  rw [List.getLast?_append] at ht
  cases hback : back.getLast? with
  | none =>
    rw [hback] at ht
    exact h t ht
  | some u =>
    rw [hback] at ht
    cases ht
    exact h' _ hback

theorem of_last (h : t.kind ≠ .mark .semicolon) (hlast : front.getLast? = some t) :
    Unended front := by
  intro u hu
  rw [hlast] at hu
  cases hu
  exact h

theorem cons (h : t.kind ≠ .mark .semicolon) (h' : Unended back) : Unended (t :: back) :=
  (of_last h List.getLast?_singleton).append h'

end Unended

theorem ne_semicolon {t : Token} {kind : TokenKind} (hk : t.kind = kind)
    (hne : kind ≠ .mark .semicolon) : t.kind ≠ .mark .semicolon := hk ▸ hne

variable {toks : List Token} {next : Token} {e : Expr}

theorem clause_unended {word : Keyword} {c : NameClause} (h : Clause word toks next c) :
    Unended toks := by
  cases h with
  | intro _ hn => exact .of_last (ne_semicolon hn.kind (by simp)) rfl

theorem listing_unended {l : ListLiteral} (h : Listing toks next l) : Unended toks := by
  cases h with
  | intro _ _ hr => exact .of_last (ne_semicolon hr (by simp)) List.getLast?_concat

section Sub

variable {gap : Phrase SyntaxError} {R : SubPhrase}
  (hs : ∀ {power toks next e}, R power toks next e → Unended toks)
include hs

theorem primary_unended (h : Primary gap R toks next e) : Unended toks := by
  cases h with
  | number hk _ =>
    rcases hk with hk | hk <;> exact .of_last (ne_semicolon hk (by simp)) rfl
  | ident hn => exact .of_last (ne_semicolon hn.kind (by simp)) rfl
  | string hk | date hk _ | time hk _ | boolean hk =>
    exact .of_last (ne_semicolon hk (by simp)) rfl
  | @unary _ _ op _ _ hk ho =>
    exact .cons (ne_semicolon hk (by cases op <;> simp [UnaryOp.mark])) (hs ho)
  | unit _ hr | macroUnit _ _ _ _ hr | callUnit _ _ hr =>
    exact .of_last (ne_semicolon hr (by simp)) rfl
  | paren _ _ hr | macroCall _ _ _ _ _ hr | call _ _ _ _ hr =>
    exact .of_last (ne_semicolon hr (by simp)) (by rw [List.getLast?_append]; rfl)
  | overClause hk hcontext _ => exact .cons (ne_semicolon hk (by simp)) (hs hcontext)
  | overAlias _ _ _ hn =>
    exact .of_last (ne_semicolon hn.kind (by simp)) (by rw [List.getLast?_append]; rfl)
  | filter hk hcondition => exact .cons (ne_semicolon hk (by simp)) (hs hcondition)
  | orderBy hk hword hkey _ _ =>
    exact .cons (ne_semicolon hk (by simp)) (.cons (ne_semicolon hword (by simp)) (hs hkey))
  | orderByDirection _ _ _ hd =>
    exact .of_last (ne_semicolon hd (by simp)) List.getLast?_concat
  | label hclause | set hclause => exact clause_unended hclause
  | list hlist => exact listing_unended hlist

theorem operation_unended {power : Precedence} {left : Expr}
    (h : Operation R power left toks next e) : Unended toks := by
  cases h with
  | @binary _ _ op _ _ hk _ hright =>
    exact .cons (ne_semicolon hk (by cases op <;> simp [BinaryOp.mark])) (hs hright)
  | memberList hk _ hlist => exact .cons (ne_semicolon hk (by simp)) (listing_unended hlist)
  | memberSet hk _ hclause => exact .cons (ne_semicolon hk (by simp)) (clause_unended hclause)

end Sub

theorem unended_expression_and_chain (gaps : Gaps) (levels : Nat) :
    (∀ {power toks next e}, Expression gaps levels power toks next e → Unended toks) ∧
      ∀ {power left toks next e}, Chain gaps levels power left toks next e → Unended toks := by
  induction levels with
  | zero =>
    refine ⟨fun h => h.elim, fun h => ?_⟩
    cases h
    exact .nil
  | succ levels ih =>
    refine ⟨fun h => ?_, fun h => ?_⟩
    · cases h with
      | intro hprimary hchain => exact (primary_unended ih.1 hprimary).append (ih.2 hchain)
    · rcases h with hstop | hgo
      · cases hstop
        exact .nil
      · cases hgo with
        | intro hop hchain => exact (operation_unended ih.1 hop).append (ih.2 hchain)

/-- No expression ends in a semicolon. -/
theorem expression_unended {gaps : Gaps} {levels : Nat} {power : Precedence}
    (h : Expression gaps levels power toks next e) : Unended toks :=
  (unended_expression_and_chain gaps levels).1 h

/-- A binding without the semicolon that ends it. -/
def unendedBinding (sub : SubReader) : Read (Ident × Expr) := do
  let name ← expectName
  let _ ← expect (.mark .eq)
  advance
  return (name, ← sub .lowest)

theorem binding_yields_iff {sub : SubReader} {b : Binding} {c c' : Cursor} :
    Yields (binding sub) c b c' ↔ ∃ name value c₁, Yields (unendedBinding sub) c (name, value) c₁ ∧
      c₁.peek.kind = .mark .semicolon ∧ b = ⟨c.current, name, value, c₁.peek⟩ ∧
        c' = c₁.advance := by
  constructor
  · intro h
    obtain ⟨name, c₁, hn, h⟩ := bind_yields_iff.mp (current_bind_yields_iff.mp h)
    obtain ⟨eq, c₂, heq, h⟩ := bind_yields_iff.mp h
    obtain ⟨value, c₃, hv, h⟩ := bind_yields_iff.mp (advance_bind_yields_iff.mp h)
    rw [peek_bind_yields_iff] at h
    split at h
    · rename_i hsemi
      rw [advance_bind_yields_iff] at h
      obtain ⟨rfl, rfl⟩ := pure_yields_iff.mp h
      refine ⟨name, value, c₃, bind_yields_iff.mpr ⟨name, c₁, hn, ?_⟩, hsemi, rfl, rfl⟩
      refine bind_yields_iff.mpr ⟨eq, c₂, heq, advance_bind_yields_iff.mpr ?_⟩
      exact bind_yields_iff.mpr ⟨value, c₃, hv, pure_yields_iff.mpr ⟨rfl, rfl⟩⟩
    · exact absurd h not_fail_yields
  · rintro ⟨name, value, c₃, h, hsemi, rfl, rfl⟩
    obtain ⟨name', c₁, hn, h⟩ := bind_yields_iff.mp h
    obtain ⟨eq, c₂, heq, h⟩ := bind_yields_iff.mp h
    obtain ⟨value', c₄, hv, h⟩ := bind_yields_iff.mp (advance_bind_yields_iff.mp h)
    obtain ⟨heq', rfl⟩ := pure_yields_iff.mp h
    cases heq'
    refine current_bind_yields_iff.mpr (bind_yields_iff.mpr ⟨name, c₁, hn, ?_⟩)
    refine bind_yields_iff.mpr ⟨eq, c₂, heq, advance_bind_yields_iff.mpr ?_⟩
    refine bind_yields_iff.mpr ⟨value, c₃, hv, peek_bind_yields_iff.mpr ?_⟩
    rw [if_pos hsemi]
    exact advance_bind_yields_iff.mpr (pure_yields_iff.mpr ⟨rfl, rfl⟩)

section Continued

variable {more : List Token} {eof : Token} {c c' : Cursor} (he : c.eof.kind = .eof)
  (hends : EndsInSemicolon c.rest) (hq : Quiet False c c')
include he hends hq

/-- What is read without an error, and not up to the last token, is read so whatever follows. -/
theorem yields_continued {α : Type} {x : Read α} {a : α} (hx : Continues more eof c x x)
    (h : Yields x c a c') (hlen : 1 < c'.rest.length) :
    Yields x (c.continued more eof) a (c'.continued more eof) := by
  have hagrees := hx.agrees he hends
  rw [h] at hagrees
  rcases hagrees with heq | hlast | ⟨e, hfails⟩ | herrors
  · exact heq
  · exact absurd hlast (Nat.not_le.mpr hlen)
  · cases hfails
  · exact absurd herrors (Nat.not_lt.mpr (hq.resolve_left id))

omit he hends hq in
theorem unendedBinding_continues {sub : SubReader}
    (hs : ∀ power c, Continues more eof c (sub power) (sub power)) (c : Cursor) :
    Continues more eof c (unendedBinding sub) (unendedBinding sub) := by
  have hR : Congruence (@Continues more eof) := continues_congruence
  refine hR.bind hR.expectName fun _ _ _ => hR.bind (hR.expect _) fun _ _ _ => ?_
  exact hR.advance_then (hR.then_pure (hs _ _) _)

/-- A binding is read up to its semicolon, whatever follows. -/
theorem binding_continued {sub : SubReader} {b : Binding}
    (hs : ∀ power c, Continues more eof c (sub power) (sub power)) (hne : c.rest ≠ [])
    (h : Yields (binding sub) c b c') :
    Yields (binding sub) (c.continued more eof) b (c'.continued more eof) ∧ c'.rest ≠ [] := by
  obtain ⟨name, value, c₁, hfront, hsemi, rfl, rfl⟩ := binding_yields_iff.mp h
  have hx := unendedBinding_continues hs c
  have hp := hx.precedes
  rw [hfront] at hp
  have hlen : 1 < c₁.rest.length := Cursor.length_of_peek (hp.eof ▸ he) (by rw [hsemi]; rfl)
  have hends₁ : EndsInSemicolon c₁.rest := hends.suffix hp.rest
  have hpeek : (c₁.continued more eof).peek = c₁.peek := Cursor.peek_continued hends₁ hlen
  have hfront' := yields_continued he hends hq.of_advance hx hfront hlen
  refine ⟨binding_yields_iff.mpr ⟨name, value, c₁.continued more eof, hfront', ?_, ?_,
    (Cursor.advance_continued hends₁ hlen).symm⟩, Cursor.following_ne_nil hends₁ hlen⟩
  · rw [hpeek, hsemi]
  · rw [hpeek, Cursor.current_continued hne]

/-- Without an error no expression is read up to a semicolon at the end. -/
theorem length_of_expression (hne : c.rest ≠ []) {levels : Nat} {power : Precedence} {e : Expr}
    (h : Yields (expression levels power) c e c') : 1 < c'.rest.length := by
  have hsound : SubSound False (expression levels) (Expression Gaps.none levels) :=
    expression_sound False.elim levels
  obtain ⟨toks, ⟨raw, hraw, rfl⟩, hE⟩ := hsound.sound he hq h
  by_contra hlen
  have htail : c'.rest.tail = [] := by
    rw [← List.length_eq_zero_iff, List.length_tail]
    omega
  obtain ⟨t, hlast⟩ : ∃ t, c.rest.getLast? = some t := ⟨_, List.getLast?_eq_some_getLast hne⟩
  obtain ⟨front, hfront⟩ := List.getLast?_eq_some_iff.mp hlast
  have hsemi := hends t hlast
  rw [htail, List.append_nil] at hraw
  refine expression_unended hE _ ?_ hsemi
  rw [← hraw, hfront, List.filter_append, List.filter_singleton, hsemi]
  exact List.getLast?_concat

/-- A statement is read up to its end, whatever follows. -/
theorem statement_continued {s : Statement} (hne : c.rest ≠ []) (h : Yields statement c s c') :
    Yields statement (c.continued more eof) s (c'.continued more eof) ∧ c'.rest ≠ [] := by
  have hs : ∀ power (c : Cursor), Continues more eof c (expression nestingLimit power)
      (expression nestingLimit power) :=
    fun power _ => continues_congruence.expression nestingLimit power
  rw [statement_yields_iff] at h ⊢
  rw [Cursor.current_continued hne]
  rcases h with ⟨hk, b, hb, rfl⟩ | ⟨hk, rfl, rfl⟩ | ⟨hk, rfl, rfl⟩ |
    ⟨hvar, hline, hblock, e, c₁, hx, rfl, rfl⟩
  · obtain ⟨hb', hne'⟩ := binding_continued he hends hq hs hne hb
    exact ⟨.inl ⟨hk, b, hb', rfl⟩, hne'⟩
  · exact ⟨.inr (.inl ⟨hk, rfl, rfl⟩), hne⟩
  · exact ⟨.inr (.inr (.inl ⟨hk, rfl, rfl⟩)), hne⟩
  · have hq₁ : Quiet False c c₁ := by
      split at hq
      · exact hq.of_advance
      · exact hq
    have hp := (hs .lowest c).precedes
    rw [hx] at hp
    have hends₁ : EndsInSemicolon c₁.rest := hends.suffix hp.rest
    have hlen := length_of_expression he hends hq₁ hne hx
    have hx' := yields_continued he hends hq₁ (hs .lowest c) hx hlen
    refine ⟨.inr (.inr (.inr ⟨hvar, hline, hblock, e, _, hx', rfl, ?_⟩)), ?_⟩
    · rw [Cursor.peek_continued hends₁ hlen, Cursor.advance_continued hends₁ hlen]
      split <;> rfl
    · split
      · exact Cursor.following_ne_nil hends₁ hlen
      · exact List.ne_nil_of_length_pos (by omega)

end Continued

/-- As many steps as tokens are enough. -/
theorem statements_more {steps steps' : Nat} {c : Cursor} (hsteps : c.rest.length ≤ steps)
    (hle : steps ≤ steps') : statements steps' c = statements steps c := by
  induction steps generalizing steps' c with
  | zero =>
    have hnil : c.rest = [] := List.length_eq_zero_iff.mp (Nat.le_zero.mp hsteps)
    rw [statements_of_rest_nil hnil, statements_of_rest_nil hnil]
  | succ steps ih =>
    obtain ⟨steps', rfl⟩ : ∃ n, steps' = n + 1 := ⟨steps' - 1, by omega⟩
    rcases eq_or_ne c.rest [] with hnil | hne
    · rw [statements_of_rest_nil hnil, statements_of_rest_nil hnil]
    have hpos := List.length_pos_iff.mpr hne
    by_cases hk : c.current.kind = .mark .semicolon
    · have hlen : c.step.rest.length ≤ steps := by
        rw [Cursor.step, List.length_tail]
        omega
      rw [statements_of_semicolon hne hk, statements_of_semicolon hne hk, ih hlen (by omega)]
    · rcases yields_or_fails statement c with ⟨s, c₁, hs⟩ | ⟨e, c₁, hs⟩
      · have hlen : c₁.step.rest.length ≤ steps := by
          have hle := (statement_steady.of_yields hs).rest.length_le
          rw [Cursor.step, List.length_tail]
          omega
        rw [statements_of_yields hne hk hs, statements_of_yields hne hk hs, ih hlen (by omega)]
      · have hp := (statement_steady.of_fails hs).trans (c₁.precedes_record e)
        have hlen := (synchronize_rest hp hne).2
        rw [statements_of_fails hne hk hs, statements_of_fails hne hk hs, ih (by omega) (by omega)]

section Runs

variable {more : List Token} {eof : Token} {steps steps' : Nat} {c c' : Cursor}
  {ss : List Statement}

theorem statements_continued_of_nil (hnil : c.rest = []) (hsteps : more.length ≤ steps) :
    statements steps (c.continued more eof) = statements more.length ⟨more, eof, c.errors⟩ := by
  rw [Cursor.continued, hnil, List.nil_append]
  exact statements_more le_rfl hsteps

/-- The statements up to a semicolon at the end are read as they are without the tokens behind it,
and then those that these stand for. -/
theorem statements_continued (he : c.eof.kind = .eof) (hends : EndsInSemicolon c.rest)
    (hsteps : c.rest.length ≤ steps) (hsteps' : steps + more.length ≤ steps')
    (hq : Quiet False c c') (h : statements steps c = (ss, c')) :
    statements steps' (c.continued more eof) =
      (ss ++ (statements more.length ⟨more, eof, c.errors⟩).1,
        (statements more.length ⟨more, eof, c.errors⟩).2) := by
  induction steps generalizing steps' c ss with
  | zero =>
    cases h
    exact statements_continued_of_nil (List.length_eq_zero_iff.mp (Nat.le_zero.mp hsteps))
      (by omega)
  | succ steps ih =>
    rcases eq_or_ne c.rest [] with hnil | hne
    · cases (statements_of_rest_nil hnil).symm.trans h
      exact statements_continued_of_nil hnil (by omega)
    obtain ⟨steps', rfl⟩ : ∃ n, steps' = n + 1 := ⟨steps' - 1, by omega⟩
    have hpos := List.length_pos_iff.mpr hne
    have hne' : (c.continued more eof).rest ≠ [] := List.append_ne_nil_of_left_ne_nil hne _
    have hcurrent : (c.continued more eof).current = c.current := Cursor.current_continued hne
    by_cases hk : c.current.kind = .mark .semicolon
    · have hlen : c.step.rest.length ≤ steps := by
        rw [Cursor.step, List.length_tail]
        omega
      rw [statements_of_semicolon hne hk] at h
      rw [statements_of_semicolon hne' (hcurrent ▸ hk), Cursor.step_continued hne]
      exact ih (c := c.step) he (hends.suffix (List.tail_suffix _)) hlen (by omega) hq h
    · rcases yields_or_fails statement c with ⟨s, c₁, hs⟩ | ⟨e, c₁, hs⟩
      · have hp := statement_steady.of_yields hs
        have hlen : c₁.step.rest.length ≤ steps := by
          have hle := hp.rest.length_le
          rw [Cursor.step, List.length_tail]
          omega
        rw [statements_of_yields hne hk hs] at h
        cases hrun : statements steps c₁.step with
        | mk others c₂ =>
          rw [hrun] at h
          cases h
          have hq₁ : Quiet False c c₁ := hq.imp_right (statements_errors_le hrun).trans
          have herrors : c.errors = c₁.errors :=
            hp.errors.eq_of_length_le (hq₁.resolve_left id)
          obtain ⟨hs', hne₁⟩ : Yields statement (c.continued more eof) s (c₁.continued more eof) ∧
              c₁.rest ≠ [] := statement_continued he hends hq₁ hne hs
          have hsteps₁ : steps + more.length ≤ steps' := by omega
          have hothers := ih (c := c₁.step) (hp.eof ▸ he)
            ((hends.suffix hp.rest).suffix (List.tail_suffix _)) hlen hsteps₁
            (hq.imp_right fun hle => hle.trans hp.errors_le) hrun
          rw [statements_of_yields hne' (hcurrent ▸ hk) hs', Cursor.step_continued hne₁, hothers,
            herrors]
          rfl
      · -- a statement that fails would have left an error
        have hp := statement_steady.of_fails hs
        rw [statements_of_fails hne hk hs] at h
        have hle := statements_errors_le h
        rw [synchronize_errors] at hle
        simp only [Cursor.record, List.length_append, List.length_singleton] at hle
        have hquiet := hq.resolve_left id
        have hbefore := hp.errors_le
        omega

end Runs

end Grammar

open Grammar

/-- Tokens without errors up to a semicolon are read as they are alone, and so are those behind. -/
theorem parseTokens_append {tokens : List Token} {eof : Token} (he : eof.kind = .eof)
    (hends : EndsInSemicolon tokens) (herrors : (parseTokens tokens eof).errors = [])
    (more : List Token) (eof' : Token) :
    (parseTokens (tokens ++ more) eof').program.statements =
        (parseTokens tokens eof).program.statements ++ (parseTokens more eof').program.statements ∧
      (parseTokens (tokens ++ more) eof').errors = (parseTokens more eof').errors := by
  have hq : Quiet False ⟨tokens, eof, []⟩ (Read.statements tokens.length ⟨tokens, eof, []⟩).2 := by
    refine .inr ?_
    change (parseTokens tokens eof).errors.length ≤ 0
    rw [herrors]
    exact le_rfl
  have hsteps : tokens.length + more.length ≤ (tokens ++ more).length :=
    List.length_append.ge
  have h : Read.statements (tokens ++ more).length
      (Cursor.continued more eof' ⟨tokens, eof, []⟩) = _ :=
    statements_continued he hends le_rfl hsteps hq rfl
  exact ⟨congrArg Prod.fst h, congrArg (fun run => run.2.errors) h⟩

/-! ### Texts one below the other -/

theorem Token.shift_replaces (lines bytes : Nat) : Replaces (shift lines bytes) id where
  kind _ := rfl
  name h := ⟨h.kind, h.nonempty, h.not_blank, h.not_reserved⟩
  renamed _ := rfl
  other _ := rfl

/-- The same error behind more lines and bytes. -/
def SyntaxError.shift (lines bytes : Nat) (e : SyntaxError) : SyntaxError :=
  ⟨e.cause, e.token.shift lines bytes⟩

/-- The same statement behind more lines and bytes. -/
def Statement.shift (lines bytes : Nat) (s : Statement) : Statement :=
  s.replace (Token.shift lines bytes) id

theorem SyntaxError.replace_shift (lines bytes : Nat) (e : SyntaxError) :
    e.replace (Token.shift lines bytes) id = e.shift lines bytes := by
  obtain ⟨cause, t⟩ := e
  cases cause <;> rfl

/-- What lines mean below a text without errors that ends in a semicolon: they are read as they are
alone, and so is the text. All that comes from the lines stands as many lines and bytes further down
as the text and the newline behind it have, and is the same otherwise. -/
theorem parse_newline (a b : String) (hsize : a.utf8ByteSize + b.utf8ByteSize < 0x100000000)
    (herrors : (parse a).errors = [])
    (hlast : ∃ t, (tokenize a).getLast? = some t ∧ t.kind = .mark .semicolon) :
    let lines := (LineIndex.ofString a).lineCount
    let bytes := a.utf8ByteSize + 1
    (parse (a ++ "\n" ++ b)).tokens =
        (parse a).tokens ++ (parse b).tokens.map (Token.shift lines bytes) ∧
      (parse (a ++ "\n" ++ b)).program.statements = (parse a).program.statements ++
        (parse b).program.statements.map (Statement.shift lines bytes) ∧
      (parse (a ++ "\n" ++ b)).program.span =
        ⟨.origin, (parse b).program.span.last.down lines⟩ ∧
      (parse (a ++ "\n" ++ b)).errors = (parse b).errors.map (SyntaxError.shift lines bytes) := by
  intro lines bytes
  rw [← byteLength_toList, ← byteLength_toList] at hsize
  have hbytes : byteLength a.toList + 1 = bytes := by rw [byteLength_toList]
  have htokens := tokenize_newline hsize hlast
  have heof := endOf_newline hsize hlast
  rw [hbytes] at htokens heof
  have hends : EndsInSemicolon (tokenize a) := semicolon_of_getLast? hlast
  have hquiet : (parseTokens (tokenize a) (.endOf (LineIndex.ofString a))).errors = [] := herrors
  obtain ⟨hfront, hnone⟩ := parseTokens_append rfl hends hquiet
    ((tokenize b).map (Token.shift lines bytes))
    ((Token.endOf (LineIndex.ofString b)).shift lines bytes)
  obtain ⟨hback, hshifted⟩ := parseTokens_replace (Token.shift_replaces lines bytes) (tokenize b)
    (.endOf (LineIndex.ofString b))
  rw [parse, htokens, heof]
  refine ⟨rfl, ?_, rfl, ?_⟩
  · rw [hfront, hback]
    rfl
  · rw [hnone, hshifted]
    exact List.map_congr_left fun e _ => e.replace_shift lines bytes

theorem parse_newline_recovered :
    (parse "var x = 1;\n2;").errors = [] ∧
      (∃ t, (tokenize "var x = 1;\n2;").getLast? = some t ∧ t.kind = .mark .semicolon) ∧
      (parse "var x = 1;\n2;\nMIN(+, x)").program.statements =
        (parse "var x = 1;\n2;").program.statements ++
          (parse "MIN(+, x)").program.statements.map (Statement.shift 2 14) ∧
      (parse "var x = 1;\n2;\nMIN(+, x)").program.statements.map
          (fun s => (s.node.kindName, s.node.span)) =
        [("VarBinding", ⟨⟨0, 0⟩, ⟨0, 9⟩⟩), ("NumberLiteral", ⟨⟨1, 0⟩, ⟨1, 0⟩⟩),
          ("BuiltinCall", ⟨⟨2, 0⟩, ⟨2, 8⟩⟩)] ∧
      (parse "MIN(+, x)").errors = [⟨.missingLeft, ⟨.mark .plus, "+", ⟨0, 4⟩, ⟨0, 4⟩, 4, 5⟩⟩] ∧
      (parse "var x = 1;\n2;\nMIN(+, x)").errors =
        [⟨.missingLeft, ⟨.mark .plus, "+", ⟨2, 4⟩, ⟨2, 4⟩, 18, 19⟩⟩] := by
  -- all at once, for the kernel computes the names of the catalog anew in each proof
  obtain ⟨hfront, hany, hshown, herrors⟩ : (parse "var x = 1;\n2;").errors = [] ∧
      (tokenize "var x = 1;\n2;").getLast?.any (·.kind = .mark .semicolon) ∧
      (parse "var x = 1;\n2;\nMIN(+, x)").program.statements.map
          (fun s => (s.node.kindName, s.node.span)) =
        [("VarBinding", ⟨⟨0, 0⟩, ⟨0, 9⟩⟩), ("NumberLiteral", ⟨⟨1, 0⟩, ⟨1, 0⟩⟩),
          ("BuiltinCall", ⟨⟨2, 0⟩, ⟨2, 8⟩⟩)] ∧
      (parse "MIN(+, x)").errors =
        [⟨.missingLeft, ⟨.mark .plus, "+", ⟨0, 4⟩, ⟨0, 4⟩, 4, 5⟩⟩] := by decide +kernel
  obtain ⟨t, ht, hk⟩ := (Option.any_eq_true _ _).mp hany
  have hlast : ∃ t, (tokenize "var x = 1;\n2;").getLast? = some t ∧ t.kind = .mark .semicolon :=
    ⟨t, ht, of_decide_eq_true hk⟩
  obtain ⟨hlines, hbytes, htext⟩ : (LineIndex.ofString "var x = 1;\n2;").lineCount = 2 ∧
      "var x = 1;\n2;".utf8ByteSize + 1 = 14 ∧
      "var x = 1;\n2;" ++ "\n" ++ "MIN(+, x)" = "var x = 1;\n2;\nMIN(+, x)" := by decide +kernel
  have hjoined := parse_newline "var x = 1;\n2;" "MIN(+, x)" (by decide +kernel) hfront hlast
  rw [hlines, hbytes, htext] at hjoined
  obtain ⟨-, hstatements, -, hshifted⟩ := hjoined
  refine ⟨hfront, hlast, hstatements, hshown, herrors, ?_⟩
  rw [hshifted, herrors]
  rfl

end PayFormula
