import PayFormula.Proofs.Reading.Rounds

/-!
# Expressions inside others start further on

An expression is read by reading others, with fewer levels of nesting left. Here
the readers of those others are replaced: `expressionBy` reads the expressions
inside one with readers of its own for each number of levels. If these readers
agree with the ones replaced wherever fewer levels are left and the cursor is
further on, the same is read. So no expression inside another one is read from the
cursor the outer one starts at, or from one in front of it.
-/
namespace PayFormula

namespace Read

variable {α β : Type} {c₀ c : Cursor} {sub sub' : SubReader}

/-! ### Runs from a cursor on -/

/-- Two readers that run alike further on than some cursor, and get no further back. -/
def Agrees (c₀ c : Cursor) (x x' : Read α) : Prop :=
  Advances c₀ c → x c = x' c ∧ c.Precedes (x' c).2

theorem agrees_of_steady {x : Read α} (h : Steady x) : Agrees c₀ c x x := fun _ => ⟨rfl, h c⟩

theorem argumentOrPlaceholder_run (h : argument sub c = argument sub' c) :
    argumentOrPlaceholder sub c = argumentOrPlaceholder sub' c := by
  have hattempt : attempt (argument sub) c = attempt (argument sub') c := by
    rw [attempt, attempt, h]
  rw [argumentOrPlaceholder, argumentOrPlaceholder, rest_bind_run, rest_bind_run, bind_run,
    hattempt]
  rfl

theorem agrees_congruence : Congruence (Agrees c₀) where
  pure a := agrees_of_steady (pure_steady a)
  throw _ := agrees_of_steady fun c => .refl c
  bind {α β c x x' f f'} hx hf := fun hc => by
    obtain ⟨hrun, hp⟩ := hx hc
    rcases yields_or_fails x c with ⟨a, c₁, hy⟩ | ⟨e, c₁, hfail⟩
    · have hy' : Yields x' c a c₁ := hrun.symm.trans hy
      rw [hy'] at hp
      obtain ⟨hrest, hp₁⟩ := hf a c₁ hy (hc.precedes hp)
      rw [bind_run, bind_run, hy, hy']
      exact ⟨hrest, hp.trans hp₁⟩
    · have hf' : Fails x' c e c₁ := hrun.symm.trans hfail
      rw [hf'] at hp
      rw [bind_run, bind_run, hfail, hf']
      exact ⟨rfl, hp⟩
  current := agrees_of_steady current_steady
  peek := agrees_of_steady peek_steady
  advance := agrees_of_steady advance_steady
  remaining hx _ := hx _
  recovered h := fun hc =>
    have ⟨hrun, hp⟩ := h hc
    ⟨argumentOrPlaceholder_run hrun, argumentOrPlaceholder_precedes hp⟩

/-! ### Phrases with expressions inside -/

/-- What stands behind a token is further on. -/
theorem run_of_agrees (hne : c.rest ≠ []) {x x' : Read α} (h : Agrees c c.advance x x') :
    x c.advance = x' c.advance := (h (advances_advance hne)).1

section Sub

variable (hs : ∀ power c', Advances c c' → sub power c' = sub' power c')
  (hsteady : ∀ power, Steady (sub' power))
include hs hsteady

theorem agrees_of_advances {power : Precedence} {c' : Cursor} :
    Agrees c c' (sub power) (sub' power) := fun hc => ⟨hs power c' hc, hsteady power c'⟩

variable (hne : c.rest ≠ [])
include hne

theorem unary_run (op : UnaryOp) : unary op sub c = unary op sub' c :=
  run_of_agrees hne (agrees_congruence.then_pure (agrees_of_advances hs hsteady) _)

theorem filter_run : filter sub c = filter sub' c :=
  run_of_agrees hne (agrees_congruence.then_pure (agrees_of_advances hs hsteady) _)

theorem overClause_run : overClause sub c = overClause sub' c := by
  refine run_of_agrees hne (agrees_congruence.bind (agrees_of_advances hs hsteady) fun _ _ _ =>
    agrees_congruence.peek_then ?_)
  split
  · exact agrees_congruence.advance_then
      (agrees_congruence.then_pure agrees_congruence.nameClause _)
  · exact agrees_congruence.pure _

theorem orderBy_run : orderBy sub c = orderBy sub' c := by
  rw [orderBy, orderBy, current_bind_run, current_bind_run]
  refine bind_run_congr fun byToken c₁ hby => ?_
  obtain ⟨-, -, rfl⟩ := expect_yields_iff.mp hby
  refine run_of_agrees hne (agrees_congruence.advance_then (agrees_congruence.bind
    (agrees_of_advances hs hsteady) fun key _ _ => agrees_congruence.peek_then ?_))
  split
  · exact agrees_congruence.advance_then (agrees_congruence.pure _)
  · exact agrees_congruence.advance_then (agrees_congruence.pure _)
  · exact agrees_congruence.pure _

theorem paren_run : paren sub c = paren sub' c := by
  rw [paren, paren, current_bind_run, current_bind_run, peek_bind_run, peek_bind_run]
  split
  · rfl
  · refine run_of_agrees hne (agrees_congruence.bind
      (agrees_congruence.block (agrees_of_advances hs hsteady) hsteady) fun _ _ _ => ?_)
    exact agrees_congruence.then_pure (agrees_congruence.expectClosing _ _) _

theorem macroCall_run : macroCall sub c = macroCall sub' c := by
  have close {c' : Cursor} (f : Token → Token → Expr) :
      Agrees c c' (expectClosing .lparen .rparen >>= fun r =>
          expectClosing .dollar .dollar >>= fun closing => pure (f r closing))
        (expectClosing .lparen .rparen >>= fun r =>
          expectClosing .dollar .dollar >>= fun closing => pure (f r closing)) :=
    agrees_of_steady ((expectClosing_steady _ _).bind fun _ =>
      (expectClosing_steady _ _).bind fun _ => pure_steady _)
  rw [macroCall, macroCall, current_bind_run, current_bind_run]
  refine bind_run_congr fun name c₁ hname => ?_
  obtain ⟨-, -, rfl⟩ := expectName_yields_iff.mp hname
  refine run_of_agrees hne (agrees_congruence.bind (agrees_congruence.expect _) fun lparen c₂ hl =>
    agrees_congruence.peek_then ?_)
  obtain ⟨hlk, rfl, rfl⟩ := expect_yields_iff.mp hl
  split
  · exact agrees_congruence.bind (agrees_congruence.pure []) fun _ _ _ => close _
  · refine agrees_congruence.remaining (fun n => agrees_congruence.bind
      (agrees_congruence.macroArgs (agrees_of_advances hs hsteady) n) fun _ _ _ => close _) ?_
    intro c' he hc
    refine Enough.bind fun hn hm => macroArgs_more he hn hm hsteady ?_
    exact Cursor.rest_ne_nil_of_isSolid he (by rw [hc, Cursor.advance_current, hlk]; rfl)

theorem call_run : call sub c = call sub' c := by
  rw [call, call, current_bind_run, current_bind_run]
  refine bind_run_congr fun lparen c₁ hl => ?_
  obtain ⟨hlk, rfl, rfl⟩ := expect_yields_iff.mp hl
  refine run_of_agrees hne (agrees_congruence.peek_then ?_)
  split
  · exact agrees_congruence.advance_then (agrees_congruence.pure _)
  · refine agrees_congruence.remaining (fun n => agrees_congruence.then_pure
      (agrees_congruence.arguments (agrees_of_advances hs hsteady) hsteady n) _) ?_
    intro c' he hc
    refine Enough.bind fun hn hm => arguments_more he hn hm hsteady ?_
    exact Cursor.rest_ne_nil_of_isSolid he (by rw [hc, Cursor.advance_current, hlk]; rfl)

omit hne in
theorem primary_run (he : c.eof.kind = .eof) : primary sub c = primary sub' c := by
  rw [primary, primary, current_bind_run, current_bind_run]
  rcases eq_or_ne c.rest [] with hnil | hne
  · rw [Cursor.current_of_rest_nil hnil, he]
  · cases c.current.kind with
    | mark m =>
      cases m with
      | minus | bang => exact unary_run hs hsteady hne _
      | lparen => exact paren_run hs hsteady hne
      | dollar => exact macroCall_run hs hsteady hne
      | _ => rfl
    | keyword word =>
      cases word with
      | overWord => exact overClause_run hs hsteady hne
      | whereWord => exact filter_run hs hsteady hne
      | orderWord => exact orderBy_run hs hsteady hne
      | _ => rfl
    | builtin => exact call_run hs hsteady hne
    | _ => rfl

end Sub

/-! ### Expressions -/

mutual

/-- An expression whose expressions inside are read by `sub`. -/
def expressionBy (sub : Nat → SubReader) : Nat → SubReader
  | 0, _ => do fail .tooDeep (← current)
  | levels + 1, power => do
    let left ← primary (sub levels)
    chainBy sub levels power left

/-- Goes on after a left operand, with the right operands read by `sub`. -/
def chainBy (sub : Nat → SubReader) : Nat → Precedence → Expr → Read Expr
  | 0, power, left => do
    if power < .of (← peek).kind then
      advance
      fail .tooDeep (← current)
    else return left
  | levels + 1, power, left => do
    if power < .of (← peek).kind then
      advance
      let left ← operator (sub levels) left
      chainBy sub levels power left
    else return left

end

section By

variable {sub : Nat → SubReader} {levels : Nat}

theorem chainBy_run
    (h : ∀ k < levels, ∀ power c', Advances c₀ c' → sub k power c' = expression k power c')
    (hp : c₀.Precedes c) (he : c.eof.kind = .eof) (power : Precedence) (left : Expr) :
    chainBy sub levels power left c = chain levels power left c := by
  induction levels generalizing c left with
  | zero => rw [chainBy, chain]
  | succ levels ih =>
    rw [chainBy, chain, peek_bind_run, peek_bind_run]
    refine ite_run_congr fun hpower => ?_
    have hne : c.rest ≠ [] := fun hnil => by
      rw [Cursor.peek_of_rest_nil hnil, he] at hpower
      exact absurd hpower (Nat.not_lt_zero _)
    have hagrees : Agrees c₀ c.advance (operator (sub levels) left)
        (operator (expression levels) left) := agrees_congruence.operator
      (agrees_of_advances (h levels (Nat.lt_succ_self _)) (expression_steady levels)) left
    have hoperator := hagrees (.of_precedes hp (advances_advance hne))
    rw [advance_bind_run, advance_bind_run, bind_run, bind_run, hoperator.1]
    rcases hrun : operator (expression levels) left c.advance with ⟨_ | left', c₁⟩
    · rfl
    · have hp₁ := hoperator.2
      rw [hrun] at hp₁
      exact ih (fun k hk => h k (Nat.lt_succ_of_lt hk)) ((hp.trans c.precedes_advance).trans hp₁)
        (by rw [hp₁.eof, Cursor.advance_eof, he]) left'

/-- Every expression inside another one has fewer levels left and starts further on. -/
theorem expressionBy_run (he : c.eof.kind = .eof) (power : Precedence)
    (h : ∀ k < levels, ∀ power c', Advances c c' → sub k power c' = expression k power c') :
    expressionBy sub levels power c = expression levels power c := by
  cases levels with
  | zero => rw [expressionBy, expression]
  | succ levels =>
    rw [expressionBy, expression, bind_run, bind_run,
      primary_run (h levels (Nat.lt_succ_self _)) (expression_steady levels) he]
    rcases hrun : primary (expression levels) c with ⟨_ | left, c₁⟩
    · rfl
    · have hp := (primary_steady (expression_steady levels)).of_yields hrun
      exact chainBy_run (fun k hk => h k (Nat.lt_succ_of_lt hk)) hp (hp.eof ▸ he) power left

end By

/-! ### Texts -/

/-- Why reading a text of some tokens comes to an end, with nothing that bounds a repetition. -/
structure Terminates (tokens : List Token) (eof : Token) : Prop where
  /-- A step of the program ends further on than it started. -/
  statement {c c' : Cursor} {items : List Statement} : c.In tokens eof →
    Yields statementRound c (items, true) c' →
    c'.In tokens eof ∧ c.index tokens < c'.index tokens
  /-- The token after an argument or its placeholder, from where the next argument is read, is
  further on than the one in front. -/
  argument {levels : Nat} {c c' : Cursor} {items : List Expr} {again : Bool} : c.In tokens eof →
    Yields (argumentRound (expression levels)) c (items, again) c' →
    c'.In tokens eof ∧ c.index tokens < c'.index tokens ∧ c'.index tokens < tokens.length
  /-- An expression inside another one has fewer levels left and starts further on. -/
  inside {sub : Nat → SubReader} {levels : Nat} {power : Precedence} {c : Cursor} :
    c.In tokens eof →
    (∀ k < levels, ∀ power c', c'.In tokens eof → c.index tokens < c'.index tokens →
      sub k power c' = expression k power c') →
    expressionBy sub levels power c = expression levels power c
  strings {c c' : Cursor} {result : Except SyntaxError (List StringLiteral)} : c.In tokens eof →
    (Repeats stringRound c result c' ↔ strings c.rest.length c = (result, c'))
  bindings {levels : Nat} {c c' : Cursor} {result : Except SyntaxError (List Binding)} :
    c.In tokens eof → (Repeats (bindingRound (expression levels)) c result c' ↔
      bindings (expression levels) c.rest.length c = (result, c'))
  /-- The arguments of a macro are read from a token on, its `(`. -/
  macroArgs {levels : Nat} {c c' : Cursor} {result : Except SyntaxError (List Expr)} :
    c.In tokens eof → c.rest ≠ [] → (Repeats (macroRound (expression levels)) c result c' ↔
      macroArgs (expression levels) c.rest.length c = (result, c'))
  arguments {levels : Nat} {c c' : Cursor} {result : Except SyntaxError (List Expr)} :
    c.In tokens eof → c.rest ≠ [] → (Repeats (argumentRound (expression levels)) c result c' ↔
      (Prod.fst <$> arguments (expression levels) c.rest.length) c = (result, c'))

theorem terminates {tokens : List Token} {eof : Token} (he : eof.kind = .eof) :
    Terminates tokens eof where
  statement hc h :=
    have ⟨hp, hlt⟩ := statementRound_advances h
    ⟨hc.precedes hp, hc.index_lt hlt⟩
  argument {levels c c' items again} hc h := by
    obtain ⟨⟨hp, hlt⟩, hne⟩ := argumentRound_advances (hc.eof ▸ he) (expression_steady levels) h
    have hpos := List.length_pos_iff.mpr hne
    have hle := (hc.precedes hp).rest.length_le
    refine ⟨hc.precedes hp, hc.index_lt hlt, ?_⟩
    unfold Cursor.index
    omega
  inside hc h := expressionBy_run (hc.eof ▸ he) _ fun k hk power _ hadv =>
    h k hk power _ (hc.precedes hadv.1) (hc.index_lt hadv.2)
  strings hc := strings_bounded.repeats_iff (hc.eof ▸ he) (Nat.le_refl _)
  bindings hc := (bindings_bounded (expression_steady _)).repeats_iff (hc.eof ▸ he) (Nat.le_refl _)
  macroArgs hc hne :=
    (macroArgs_bounded (expression_steady _)).repeats_iff ⟨hc.eof ▸ he, hne⟩ (Nat.le_refl _)
  arguments hc hne :=
    (arguments_bounded (expression_steady _)).repeats_iff ⟨hc.eof ▸ he, hne⟩ (Nat.le_refl _)

theorem parseTokens_repeats (tokens : List Token) (eof : Token) :
    ∃ c : Cursor, c.errors = (parseTokens tokens eof).errors ∧
      ∀ result c', Repeats statementRound ⟨tokens, eof, []⟩ result c' ↔
        result = .ok (parseTokens tokens eof).program.statements ∧ c' = c := by
  refine ⟨(statements tokens.length ⟨tokens, eof, []⟩).2, rfl, fun result c' => ?_⟩
  rw [statements_bounded.repeats_iff (n := tokens.length) trivial (Nat.le_refl _), Prod.ext_iff]
  exact and_congr eq_comm eq_comm

end Read

/-- Reading comes to an end on all tokens and on all texts. -/
theorem parse_terminates :
    (∀ (tokens : List Token) (place : Position) (offset : Nat),
      Read.Terminates tokens (.eof place offset)) ∧
    ∀ source : String, ∃ c : Cursor, c.errors = (parse source).errors ∧
      ∀ result c', Read.Repeats Read.statementRound
          ⟨tokenize source, .endOf (LineIndex.ofString source), []⟩ result c' ↔
        result = .ok (parse source).program.statements ∧ c' = c :=
  ⟨fun _ _ _ => Read.terminates rfl, fun _ => Read.parseTokens_repeats _ _⟩

/-- Behind the first argument a token is passed over, and the next argument is read further on. What
expressions would read from where the outer one starts does not matter: none is read there. -/
theorem parse_terminates_recovering :
    let source := "round(1 2, 3) 4; 5"
    let tokens := tokenize source
    let c : Cursor := ⟨tokens, .endOf (LineIndex.ofString source), []⟩
    (∃ items c', Read.Yields Read.statementRound c (items, true) c' ∧
      c.index tokens < c'.index tokens) ∧
    (∃ items c', Read.Yields (Read.argumentRound (Read.expression 3)) c.advance (items, true) c' ∧
      c'.errors ≠ [] ∧ c.advance.index tokens < c'.index tokens ∧
      c'.index tokens < tokens.length) ∧
    (∃ result c', Read.Repeats (Read.argumentRound (Read.expression 3)) c.advance result c') ∧
    Read.expressionBy (fun levels power c' =>
      if c.index tokens < c'.index tokens then Read.expression levels power c'
      else Read.fail .tooDeep c'.current c') 4 .lowest c = Read.expression 4 .lowest c ∧
    ∃ c', Read.Repeats Read.statementRound c (.ok (parse source).program.statements) c' := by
  intro source tokens c
  have h := parse_terminates.1 tokens (LineIndex.ofString source).endPosition
    (LineIndex.ofString source).length
  have hin : c.In tokens (.endOf (LineIndex.ofString source)) := ⟨List.suffix_rfl, rfl⟩
  have hadvance : c.advance.In tokens (.endOf (LineIndex.ofString source)) :=
    hin.precedes c.precedes_advance
  refine ⟨?_, ?_, ?_, ?_, ?_⟩
  · have hagain : ((Read.statementRound c).1.map Prod.snd).toOption = some true := by decide +kernel
    rcases hround : Read.statementRound c with ⟨_ | ⟨items, again⟩, c'⟩ <;> rw [hround] at hagain
    · cases hagain
    · cases hagain
      exact ⟨items, c', hround, (h.statement hin hround).2⟩
  · have hagain : ((Read.argumentRound (Read.expression 3) c.advance).1.map Prod.snd).toOption =
        some true := by decide +kernel
    have herrors : (Read.argumentRound (Read.expression 3) c.advance).2.errors ≠ [] := by
      decide +kernel
    rcases hround : Read.argumentRound (Read.expression 3) c.advance with
      ⟨_ | ⟨items, again⟩, c'⟩ <;> rw [hround] at hagain herrors
    · cases hagain
    · cases hagain
      exact ⟨items, c', hround, herrors, (h.argument hadvance hround).2⟩
  · have hrest : c.advance.rest ≠ [] := by decide +kernel
    exact ⟨_, _, (h.arguments hadvance hrest).mpr rfl⟩
  · exact h.inside hin fun k _ power c' _ hlt => if_pos hlt
  · obtain ⟨c', -, hrun⟩ := parse_terminates.2 source
    exact ⟨c', (hrun _ _).mpr ⟨rfl, rfl⟩⟩

end PayFormula
