import PayFormula.Proofs.Grammar.Sound

/-!
# The grammar of programs

How the statements of a program lie in the tokens of its text, comments
included. In a strict program nothing is passed over but `;`; in a lax one
anything may be, as recovery does after an error.
-/
namespace PayFormula

namespace Grammar

open Read

/-- The statements that the tokens of a text stand for, in front of its end token. -/
inductive Lines (lax : Prop) (gaps : Gaps) (eof : Token) : List Token → List Statement → Prop
  | nil : Lines lax gaps eof [] []
  | skip {t : Token} {rest : List Token} {ss : List Statement} :
      lax ∨ t.kind = .mark .semicolon → Lines lax gaps eof rest ss →
        Lines lax gaps eof (t :: rest) ss
  | lineComment {t : Token} {rest : List Token} {ss : List Statement} : t.kind = .lineComment →
      Lines lax gaps eof rest ss → Lines lax gaps eof (t :: rest) (.lineComment ⟨t⟩ :: ss)
  | blockComment {t : Token} {rest : List Token} {ss : List Statement} : t.kind = .blockComment →
      Lines lax gaps eof rest ss → Lines lax gaps eof (t :: rest) (.blockComment ⟨t⟩ :: ss)
  | binding {before toks after : List Token} {b : Binding} {ss : List Statement} :
      Between before toks after → Bound (Expression gaps nestingLimit) toks b →
      Lines lax gaps eof after ss → Lines lax gaps eof before (.binding b :: ss)
  | expression {before toks after : List Token} {e : Expr} {ss : List Statement} :
      Between before toks after →
      Expression gaps nestingLimit .lowest toks (nextToken eof after) e →
      Lines lax gaps eof after ss → Lines lax gaps eof before (.expression e :: ss)
  | ended {before toks middle after : List Token} {semicolon : Token} {e : Expr}
      {ss : List Statement} : Between before toks middle →
      Expression gaps nestingLimit .lowest toks (nextToken eof middle) e →
      Between middle [semicolon] after → semicolon.kind = .mark .semicolon →
      Lines lax gaps eof after ss → Lines lax gaps eof before (.expression e :: ss)

variable {lax : Prop} {gaps : Gaps} {eof : Token}

theorem Lines.drop {skipped rest : List Token} {ss : List Statement} (hlax : lax)
    (h : Lines lax gaps eof rest ss) : Lines lax gaps eof (skipped ++ rest) ss := by
  induction skipped with
  | nil => exact h
  | cons t skipped ih => exact .skip (.inl hlax) ih

section Read

variable (hgaps : lax → ∀ levels, Excuses (expression levels) (gaps levels))

include hgaps in
/-- A statement that was read stands in front of what the tokens behind it stand for. -/
theorem statement_lines {c c' : Cursor} {s : Statement} {ss : List Statement}
    (he : c.eof.kind = .eof) (hq : Quiet lax c c') (hc : c.rest ≠ [])
    (h : Yields statement c s c') (hss : Lines lax gaps c.eof c'.rest.tail ss) :
    Lines lax gaps c.eof c.rest (s :: ss) := by
  have hsub := expression_sound hgaps nestingLimit
  have hrest : c.rest = c.current :: c.rest.tail := by
    cases hr : c.rest with
    | nil => exact absurd hr hc
    | cons t rest => simp [Cursor.current, hr]
  rcases statement_yields_iff.mp h with
    ⟨hk, b, hb, rfl⟩ | ⟨hk, rfl, rfl⟩ | ⟨hk, rfl, rfl⟩ | ⟨-, -, -, e, c₁, he₁, rfl, rfl⟩
  · obtain ⟨toks, ht, hB⟩ := binding_between hsub he hq hk hb
    exact .binding ht hB hss
  · rw [hrest]
    exact .lineComment hk hss
  · rw [hrest]
    exact .blockComment hk hss
  · have heof : c₁.eof = c.eof := ((expression_steady _ _).of_yields he₁).eof
    split at hss
    · rename_i hk
      rw [if_pos hk] at hq
      obtain ⟨toks, ht, hE⟩ := hsub.sound he hq.of_advance he₁
      rw [c₁.peek_eq, heof] at hE
      exact .ended ht hE (c₁.between_peek (heof ▸ he) (by rw [hk]; rfl)) hk hss
    · rename_i hk
      rw [if_neg hk] at hq
      obtain ⟨toks, ht, hE⟩ := hsub.sound he hq he₁
      rw [Cursor.peek_eq, heof] at hE
      exact .expression ht hE hss

/-- Recovery passes over at least one token of a statement that fails. -/
theorem synchronize_rest {c c₁ : Cursor} (h : c.Precedes c₁) (hc : c.rest ≠ []) :
    c₁.synchronize.rest <:+ c.rest ∧ c₁.synchronize.rest.length < c.rest.length := by
  have hpos : 0 < c.rest.length := List.length_pos_iff.mpr hc
  unfold Cursor.synchronize
  split
  · rename_i skipped stop hsplit
    have hrest := splitAtStop?_eq_append hsplit
    have hstop : stop <:+ c.rest := List.IsSuffix.trans ⟨skipped, hrest.symm⟩ h.rest
    have hle := hstop.length_le
    exact ⟨(List.tail_suffix stop).trans hstop, by simp only [List.length_tail]; omega⟩
  · exact ⟨List.nil_suffix, hpos⟩

theorem synchronize_errors (c : Cursor) : c.synchronize.errors = c.errors := by
  unfold Cursor.synchronize
  split <;> rfl

theorem synchronize_eof (c : Cursor) : c.synchronize.eof = c.eof := by
  unfold Cursor.synchronize
  split <;> rfl

/-- Recorded errors stay, also while recovering from others. -/
theorem statements_errors (steps : Nat) (c : Cursor) :
    c.errors <+: (statements steps c).2.errors := by
  induction steps generalizing c with
  | zero => exact List.prefix_refl _
  | succ steps ih =>
    rcases eq_or_ne c.rest [] with hnil | hne
    · simp only [statements_of_rest_nil hnil, List.prefix_refl]
    by_cases hk : c.current.kind = .mark .semicolon
    · rw [statements_of_semicolon hne hk]
      exact ih c.step
    · rcases yields_or_fails statement c with ⟨s, c₁, hs⟩ | ⟨e, c₁, hs⟩
      · rw [statements_of_yields hne hk hs]
        exact (statement_steady.of_yields hs).errors.trans (ih c₁.step)
      · have hlater := ih (c₁.record e).synchronize
        rw [synchronize_errors] at hlater
        rw [statements_of_fails hne hk hs]
        exact ((statement_steady.of_fails hs).trans (c₁.precedes_record e)).errors.trans hlater

theorem statements_errors_le {steps : Nat} {c c' : Cursor} {ss : List Statement}
    (h : statements steps c = (ss, c')) : c.errors.length ≤ c'.errors.length := by
  have hprefix := statements_errors steps c
  rw [h] at hprefix
  exact hprefix.length_le

include hgaps in
/-- The statements of a run lie in its tokens. -/
theorem statements_lines {steps : Nat} {c c' : Cursor} {ss : List Statement}
    (he : c.eof.kind = .eof) (hsteps : c.rest.length ≤ steps) (hq : Quiet lax c c')
    (h : statements steps c = (ss, c')) : Lines lax gaps c.eof c.rest ss := by
  induction steps generalizing c ss with
  | zero =>
    cases h
    rw [List.length_eq_zero_iff.mp (Nat.le_zero.mp hsteps)]
    exact .nil
  | succ steps ih =>
    rw [statements] at h
    split at h
    · rename_i hnil
      cases h
      rw [List.isEmpty_iff.mp hnil]
      exact .nil
    · rename_i hne
      have hc : c.rest ≠ [] := fun hnil => hne (by rw [hnil]; rfl)
      have hpos : 0 < c.rest.length := List.length_pos_iff.mpr hc
      split at h
      · rename_i hk
        have hlen : c.step.rest.length ≤ steps := by
          simp only [Cursor.step, List.length_tail]
          omega
        have hL := ih (c := c.step) he hlen hq h
        rw [c.rest_eq_of_isSolid he (by rw [hk]; rfl)]
        exact .skip (.inr hk) hL
      · rcases yields_or_fails statement c with ⟨s, c₁, hs⟩ | ⟨e, c₁, hs⟩
        · have hp := statement_steady.of_yields hs
          rw [hs] at h
          cases hrun : statements steps c₁.step with
          | mk others c₂ =>
            simp only [hrun] at h
            cases h
            have hlen : c₁.step.rest.length ≤ steps := by
              have := hp.rest.length_le
              simp only [Cursor.step, List.length_tail]
              omega
            have hL := ih (c := c₁.step) (hp.eof ▸ he) hlen
              (hq.imp_right fun hle => hle.trans hp.errors_le) hrun
            refine statement_lines hgaps he ?_ hc hs (hp.eof ▸ hL)
            exact hq.imp_right (statements_errors_le hrun).trans
        · have hp := statement_steady.of_fails hs
          rw [hs] at h
          have hle := statements_errors_le h
          rw [synchronize_errors] at hle
          simp only [Cursor.record, List.length_append, List.length_singleton] at hle
          have hlax : lax := hq.resolve_right fun hq => by
            have := hp.errors_le
            omega
          have hrec : c.Precedes (c₁.record e) := hp.trans (c₁.precedes_record e)
          obtain ⟨hsuffix, hlt⟩ := synchronize_rest hrec hc
          have heof : (c₁.record e).synchronize.eof = c.eof :=
            (synchronize_eof _).trans hrec.eof
          have hL := ih (heof ▸ he) (by omega) (.inl hlax) h
          obtain ⟨skipped, hskip⟩ := hsuffix
          rw [← hskip, ← heof]
          exact hL.drop hlax

end Read

end Grammar

open Grammar

/-- The statements of every parsed text lie in its tokens, in a grammar that excuses what fails. -/
theorem parse_lines_of_excuses {gaps : Gaps}
    (hgaps : ∀ levels, Excuses (Read.expression levels) (gaps levels)) (source : String) :
    Lines True gaps (.endOf (LineIndex.ofString source)) (tokenize source)
      (parse source).program.statements :=
  statements_lines (fun _ => hgaps)
    (c := ⟨tokenize source, .endOf (LineIndex.ofString source), []⟩) rfl le_rfl (.inl trivial) rfl

/-- The lax grammar excuses everything. -/
theorem parse_lines (source : String) :
    Lines True Gaps.any (.endOf (LineIndex.ofString source)) (tokenize source)
      (parse source).program.statements := parse_lines_of_excuses excuses_any source

/-- Where a text is parsed without errors, they lie in its tokens strictly. -/
theorem parse_lines_strict {source : String} (h : (parse source).errors = []) :
    Lines False Gaps.none (.endOf (LineIndex.ofString source)) (tokenize source)
      (parse source).program.statements :=
  statements_lines False.elim
    (c := ⟨tokenize source, .endOf (LineIndex.ofString source), []⟩) rfl le_rfl
    (.inr (by
      change (parse source).errors.length ≤ 0
      rw [h]
      exact le_rfl)) rfl

end PayFormula
