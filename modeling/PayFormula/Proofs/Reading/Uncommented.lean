import PayFormula.Proofs.Grammar.Program
import PayFormula.Proofs.Reading.Related

/-!
# Reading without comments

Most readers look past comments, but the program is read by single tokens, and so
is what recovery passes over. Between statements a comment is a statement; a run
over the tokens without comments skips just these. Everywhere else a run stands
on a token that is no comment, goes the same way without the comments ahead, and
ends on such a token again, whether it fails or not.
-/
namespace PayFormula

def Statement.isComment : Statement → Bool
  | .lineComment _ | .blockComment _ => true
  | .expression _ | .binding _ => false

theorem filter_dropWhile_comments (tokens : List Token) :
    (tokens.dropWhile (·.kind.isComment)).filter (!·.kind.isComment) =
      tokens.filter (!·.kind.isComment) := by
  obtain ⟨raw, htokens, hraw⟩ := Between.comments tokens
  have h := congrArg (List.filter (!·.kind.isComment)) htokens
  rw [List.filter_append, hraw, List.nil_append] at h
  exact h.symm

theorem dropWhile_filter_comments (tokens : List Token) :
    (tokens.filter (!·.kind.isComment)).dropWhile (·.kind.isComment) =
      tokens.filter (!·.kind.isComment) := by
  rw [List.dropWhile_eq_self_iff]
  intro hpos
  simpa using (List.mem_filter.mp (List.getElem_mem hpos)).2

theorem TokenKind.depthAfter_of_isComment {kind : TokenKind} (h : kind.isComment) (depth : Nat) :
    kind.depthAfter depth = depth := by
  cases kind <;> first | rfl | cases h

/-- Comments neither stop recovery nor open brackets. -/
theorem splitAtStop?_filter {stops : List TokenKind}
    (hstops : ∀ kind ∈ stops, kind.isComment = false) (depth : Nat) (tokens : List Token) :
    splitAtStop? stops depth (tokens.filter (!·.kind.isComment)) =
      (splitAtStop? stops depth tokens).map
        (Prod.map (List.filter (!·.kind.isComment)) (List.filter (!·.kind.isComment))) := by
  induction tokens generalizing depth with
  | nil => rfl
  | cons t tokens ih =>
    cases ht : t.kind.isComment with
    | true =>
      have hstop : t.kind ∉ stops := fun h => by simp [hstops _ h] at ht
      rw [List.filter_cons_of_neg (by simp [ht]), splitAtStop?, if_neg (fun h => hstop h.2),
        TokenKind.depthAfter_of_isComment ht, ih, Option.map_map]
      congr 1
      funext split
      simp [ht, Prod.map]
    | false =>
      rw [List.filter_cons_of_pos (by simp [ht]), splitAtStop?, splitAtStop?, ih]
      split
      · simp [ht]
      · rw [Option.map_map, Option.map_map]
        congr 1
        funext split
        simp [ht]

namespace Cursor

/-- The cursor stands on a token that is no comment, or at the end. -/
structure OnToken (c : Cursor) : Prop where
  eof : c.eof.kind = .eof
  current : c.current.kind.isComment = false

/-- Takes the comments out of the tokens left. -/
def uncommented (c : Cursor) : Cursor := { c with rest := c.rest.filter (!·.kind.isComment) }

@[simp] theorem uncommented_eof (c : Cursor) : c.uncommented.eof = c.eof := rfl

theorem length_rest_uncommented_le (c : Cursor) : c.uncommented.rest.length ≤ c.rest.length :=
  List.length_filter_le _ _

theorem rest_uncommented_of_nil (c : Cursor) (h : c.rest = []) : c.uncommented.rest = [] := by
  rw [uncommented, h, List.filter_nil]

variable {c : Cursor}

theorem OnToken.rest_uncommented (h : c.OnToken) {t : Token} {rest : List Token}
    (hr : c.rest = t :: rest) : c.uncommented.rest = t :: rest.filter (!·.kind.isComment) := by
  have hk := h.current
  rw [Cursor.current, hr, List.headD_cons] at hk
  rw [uncommented, hr]
  simp [hk]

theorem OnToken.rest_uncommented_ne_nil (h : c.OnToken) (hne : c.rest ≠ []) :
    c.uncommented.rest ≠ [] := by
  obtain ⟨t, rest, hr⟩ := List.exists_cons_of_ne_nil hne
  rw [h.rest_uncommented hr]
  exact List.cons_ne_nil _ _

theorem OnToken.current_uncommented (h : c.OnToken) : c.uncommented.current = c.current := by
  cases hr : c.rest with
  | nil =>
    rw [current_of_rest_nil (c.rest_uncommented_of_nil hr), current_of_rest_nil hr, uncommented_eof]
  | cons t rest => simp [Cursor.current, h.rest_uncommented hr, hr]

theorem OnToken.step_uncommented (h : c.OnToken) : c.uncommented.step = c.step.uncommented := by
  unfold step
  cases hr : c.rest with
  | nil =>
    rw [c.rest_uncommented_of_nil hr]
    rfl
  | cons t rest =>
    rw [h.rest_uncommented hr]
    rfl

theorem OnToken.advance (he : c.eof.kind = .eof) : c.advance.OnToken :=
  ⟨he, c.peek_not_isComment he⟩

theorem OnToken.advance_uncommented (h : c.OnToken) :
    c.uncommented.advance = c.advance.uncommented := by
  have hstep : c.uncommented.rest.tail = c.rest.tail.filter (!·.kind.isComment) :=
    congrArg Cursor.rest h.step_uncommented
  rw [Cursor.advance, following, hstep, dropWhile_filter_comments,
    ← filter_dropWhile_comments c.rest.tail]
  rfl

theorem OnToken.peek_uncommented (h : c.OnToken) : c.uncommented.peek = c.peek := by
  rw [← advance_current, h.advance_uncommented, (OnToken.advance h.eof).current_uncommented,
    advance_current]

/-- Before a comment nothing is left out but the comment. -/
theorem step_uncommented_of_isComment (hk : c.current.kind.isComment) :
    c.step.uncommented = c.uncommented := by
  unfold uncommented step Cursor.current at *
  cases hr : c.rest with
  | nil => rfl
  | cons t rest =>
    rw [hr, List.headD_cons] at hk
    simp [hk]

theorem synchronize_uncommented (c : Cursor) :
    c.uncommented.synchronize = c.synchronize.uncommented := by
  unfold synchronize
  rw [uncommented, splitAtStop?_filter (by simp [TokenKind.isComment])]
  cases hs : splitAtStop? [.mark .semicolon] 0 c.rest with
  | none => rfl
  | some split =>
    obtain ⟨skipped, stop⟩ := split
    obtain ⟨t, rest, rfl, ht⟩ := splitAtStop?_stop hs
    have hk : t.kind.isComment = false := by
      rw [List.mem_singleton.mp ht]
      rfl
    simp [uncommented, hk]

end Cursor

namespace Read

open Grammar

variable {α : Type} {c : Cursor}

/-- From a token that is no comment, the other reader does without the comments ahead what the
reader does with them, and such a token is reached again. -/
def Uncommented (c : Cursor) (x x' : Read α) : Prop :=
  c.OnToken → x' c.uncommented = ((x c).1, (x c).2.uncommented) ∧ (x c).2.OnToken

theorem argumentOrPlaceholder_uncommented {sub sub' : SubReader}
    (h : Uncommented c (argument sub) (argument sub')) :
    Uncommented c (argumentOrPlaceholder sub) (argumentOrPlaceholder sub') := by
  intro hc
  obtain ⟨hrun, htoken⟩ := h hc
  rcases yields_or_fails (argument sub) c with ⟨arg, c₁, hy⟩ | ⟨e, c₁, hf⟩
  · rw [hy] at hrun htoken
    rw [argumentOrPlaceholder_of_yields hy, argumentOrPlaceholder_of_yields hrun,
      htoken.advance_uncommented]
    exact ⟨rfl, .advance htoken.eof⟩
  · rw [hf] at hrun htoken
    have hstops : ∀ kind ∈ [TokenKind.mark .comma, .mark .rparen], kind.isComment = false := by
      simp [TokenKind.isComment]
    have hsplit := splitAtStop?_filter hstops 0 c.rest
    cases hs : splitAtStop? [.mark .comma, .mark .rparen] 0 c.rest with
    | none =>
      rw [hs] at hsplit
      rw [argumentOrPlaceholder_fails_iff.mpr ⟨hf, hs⟩,
        argumentOrPlaceholder_fails_iff.mpr ⟨hrun, hsplit⟩]
      exact ⟨rfl, htoken⟩
    | some split =>
      obtain ⟨skipped, stop⟩ := split
      rw [hs] at hsplit
      obtain ⟨t, rest, rfl, ht⟩ := splitAtStop?_stop hs
      have hy := recover_yields_iff (c := c₁) (e := e).mpr ⟨_, _, hs, rfl, rfl⟩
      have hy' := recover_yields_iff (c := c₁.uncommented) (e := e).mpr ⟨_, _, hsplit, rfl, rfl⟩
      rw [argumentOrPlaceholder_yields_iff.mpr (.inr ⟨e, c₁, hf, hy⟩),
        argumentOrPlaceholder_yields_iff.mpr (.inr ⟨e, c₁.uncommented, hrun, hy'⟩)]
      refine ⟨?_, htoken.eof, ?_⟩
      · simp [Cursor.uncommented, Cursor.record, List.filter_filter]
      · exact hstops _ ht

theorem uncommented_congruence : Congruence @Uncommented where
  pure _ h := ⟨rfl, h⟩
  throw _ h := ⟨rfl, h⟩
  bind {α β c x x' f f'} hx hf h := by
    obtain ⟨hrun, htoken⟩ := hx h
    rcases yields_or_fails x c with ⟨a, c₁, hy⟩ | ⟨e, c₁, hy⟩
    · rw [hy] at hrun htoken
      rw [bind_run, bind_run, hrun, hy]
      exact hf a c₁ hy htoken
    · rw [hy] at hrun htoken
      rw [bind_run, bind_run, hrun, hy]
      exact ⟨rfl, htoken⟩
  current h := ⟨congrArg (fun t => (Except.ok t, _)) h.current_uncommented, h⟩
  peek h := ⟨congrArg (fun t => (Except.ok t, _)) h.peek_uncommented, h⟩
  advance h := ⟨congrArg (Prod.mk _) h.advance_uncommented, .advance h.eof⟩
  remaining {α c x x'} hx henough h := by
    obtain ⟨hrun, htoken⟩ := hx c.rest.length h
    refine ⟨?_, htoken⟩
    have hmore := henough c.uncommented h.eof h.current_uncommented le_rfl
      c.length_rest_uncommented_le
    exact hmore.symm.trans hrun
  recovered := argumentOrPlaceholder_uncommented

theorem statement_uncommented (c : Cursor) : Uncommented c statement statement :=
  uncommented_congruence.statement

theorem statement_isComment {c' : Cursor} {s : Statement} (h : Yields statement c s c') :
    s.isComment = c.current.kind.isComment := by
  rcases statement_yields_iff.mp h with
    ⟨hk, b, -, rfl⟩ | ⟨hk, rfl, -⟩ | ⟨hk, rfl, -⟩ | ⟨-, hline, hblock, e, c₁, -, rfl, -⟩
  · rw [hk]
    rfl
  · rw [hk]
    rfl
  · rw [hk]
    rfl
  · unfold TokenKind.isComment
    split <;> simp_all [Statement.isComment]

theorem statement_of_isComment (hk : c.current.kind.isComment) : ∃ s, Yields statement c s c := by
  cases hkind : c.current.kind with
  | lineComment => exact ⟨_, statement_yields_iff.mpr (.inr (.inl ⟨hkind, rfl, rfl⟩))⟩
  | blockComment => exact ⟨_, statement_yields_iff.mpr (.inr (.inr (.inl ⟨hkind, rfl, rfl⟩)))⟩
  | _ =>
    rw [hkind] at hk
    cases hk

/-- Statements are read alike without comments, but for those that are comments. -/
theorem statements_uncommented {steps steps' : Nat} (he : c.eof.kind = .eof)
    (hsteps : c.rest.length ≤ steps) (hsteps' : c.uncommented.rest.length ≤ steps') :
    statements steps' c.uncommented =
      ((statements steps c).1.filter (!·.isComment), (statements steps c).2.uncommented) := by
  induction steps generalizing steps' c with
  | zero =>
    have hnil : c.rest = [] := List.length_eq_zero_iff.mp (Nat.le_zero.mp hsteps)
    rw [statements_of_rest_nil (c.rest_uncommented_of_nil hnil)]
    rfl
  | succ steps ih =>
    rcases eq_or_ne c.rest [] with hnil | hne
    · rw [statements_of_rest_nil hnil, statements_of_rest_nil (c.rest_uncommented_of_nil hnil)]
      rfl
    have hpos := List.length_pos_iff.mpr hne
    have hlen : c.step.rest.length ≤ steps := by
      rw [Cursor.step, List.length_tail]
      omega
    cases hcomment : c.current.kind.isComment with
    | true =>
      -- only the run with comments takes a step
      obtain ⟨s, hy⟩ := statement_of_isComment hcomment
      have hk : c.current.kind ≠ .mark .semicolon := fun hk => by
        simp [hk, TokenKind.isComment] at hcomment
      have hstep := Cursor.step_uncommented_of_isComment hcomment
      have hrun := ih (c := c.step) he hlen (hstep ▸ hsteps')
      rw [hstep] at hrun
      rw [statements_of_yields hne hk hy, hrun, List.filter_cons_of_neg]
      simp [statement_isComment hy, hcomment]
    | false =>
      have htoken : c.OnToken := ⟨he, hcomment⟩
      have hne' := htoken.rest_uncommented_ne_nil hne
      have hpos' := List.length_pos_iff.mpr hne'
      obtain ⟨steps', rfl⟩ : ∃ n, steps' = n + 1 := ⟨steps' - 1, by omega⟩
      by_cases hk : c.current.kind = .mark .semicolon
      · rw [statements_of_semicolon hne hk,
          statements_of_semicolon hne' (htoken.current_uncommented ▸ hk), htoken.step_uncommented]
        refine ih (c := c.step) he hlen ?_
        rw [← htoken.step_uncommented, Cursor.step, List.length_tail]
        omega
      · have hk' : c.uncommented.current.kind ≠ .mark .semicolon := htoken.current_uncommented ▸ hk
        obtain ⟨hrun, htoken₁⟩ := statement_uncommented c htoken
        rcases yields_or_fails statement c with ⟨s, c₁, hy⟩ | ⟨e, c₁, hf⟩
        · rw [hy] at hrun htoken₁
          have hp := statement_steady.of_yields hy
          have hle := hp.rest.length_le
          have hle' := (statement_steady.of_yields hrun).rest.length_le
          have hlen₁ : c₁.step.rest.length ≤ steps := by
            rw [Cursor.step, List.length_tail]
            omega
          have hlen₁' : c₁.step.uncommented.rest.length ≤ steps' := by
            rw [← htoken₁.step_uncommented, Cursor.step, List.length_tail]
            omega
          have hrest := ih (c := c₁.step) (hp.eof ▸ he) hlen₁ hlen₁'
          rw [statements_of_yields hne hk hy, statements_of_yields hne' hk' hrun,
            htoken₁.step_uncommented, hrest, List.filter_cons_of_pos]
          simp [statement_isComment hy, hcomment]
        · rw [hf] at hrun htoken₁
          have hp := statement_steady.of_fails hf
          have hp' := statement_steady.of_fails hrun
          have hlt := (synchronize_rest (hp.trans (c₁.precedes_record e)) hne).2
          have hlt' := (synchronize_rest (hp'.trans (c₁.uncommented.precedes_record e)) hne').2
          have hsync : (c₁.uncommented.record e).synchronize =
              (c₁.record e).synchronize.uncommented := Cursor.synchronize_uncommented (c₁.record e)
          rw [hsync] at hlt'
          rw [statements_of_fails hne hk hf, statements_of_fails hne' hk' hrun, hsync]
          refine ih ?_ (by omega) (by omega)
          rw [synchronize_eof]
          exact hp.eof ▸ he

end Read

/-- The statements of tokens without comments, and the errors in them. -/
theorem parseTokens_uncommented (tokens : List Token) (eof : Token) (he : eof.kind = .eof) :
    (parseTokens (tokens.filter (!·.kind.isComment)) eof).program =
        { (parseTokens tokens eof).program with
          statements := (parseTokens tokens eof).program.statements.filter (!·.isComment) } ∧
      (parseTokens (tokens.filter (!·.kind.isComment)) eof).errors =
        (parseTokens tokens eof).errors := by
  have h := Read.statements_uncommented (c := ⟨tokens, eof, []⟩) he le_rfl le_rfl
  exact ⟨congrArg (fun run => Program.mk run.1 ⟨.origin, eof.first⟩) h,
    congrArg (fun run => run.2.errors) h⟩

/-- Comments are transparent: the tokens of a text without its comments are read as the same
statements, in the same order and places, but for those that are comments, and with exactly the
same errors. -/
theorem parse_uncommented (source : String) :
    (parseTokens ((tokenize source).filter (!·.kind.isComment))
        (.endOf (LineIndex.ofString source))).program =
        { (parse source).program with
          statements := (parse source).program.statements.filter (!·.isComment) } ∧
      (parseTokens ((tokenize source).filter (!·.kind.isComment))
        (.endOf (LineIndex.ofString source))).errors = (parse source).errors :=
  parseTokens_uncommented (tokenize source) (.endOf (LineIndex.ofString source)) rfl

end PayFormula
