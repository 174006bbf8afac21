import PayFormula.Proofs.Grammar.Program
import PayFormula.Proofs.Reading.Related
import PayFormula.Proofs.Token.Shaped

/-!
# Errors and the tokens they blame

Every error of a parse blames a token of the text, or its end, and its cause is
found there. A run fails with an error of this kind only, and that an argument was
recovered from is recorded with the error it failed with.

The tokens of a text have the shapes of their kinds. So the checks that are made of
a literal or a name once more, when it is read, fail only where its shape leaves
something open.
-/
namespace PayFormula

open Grammar

theorem SyntaxError.Within.mono {e : SyntaxError} {tokens tokens' : List Token}
    (h : e.Within tokens) (hs : tokens ⊆ tokens') : e.Within tokens' :=
  ⟨hs h.token_mem, h.foundAt⟩

namespace Read

variable {α β : Type} {c c' : Cursor}

/-- All errors that a run comes upon blame tokens from the cursor on. -/
structure Blames (c : Cursor) (run : Except SyntaxError α × Cursor) : Prop where
  precedes : c.Precedes run.2
  recorded : ∀ e ∈ run.2.errors, e ∈ c.errors ∨ e.Within c.toEnd
  failed : ∀ e, run.1 = .error e → e.Within c.toEnd

theorem Blames.of_ok {a : α} (h : c.Precedes c') (herrors : c'.errors = c.errors) :
    Blames c (.ok a, c') :=
  ⟨h, fun _ he => .inl (herrors ▸ he), fun _ he => by cases he⟩

/-- Errors blamed by a later part of a run. -/
theorem Blames.later {run : Except SyntaxError α × Cursor} {run' : Except SyntaxError β × Cursor}
    (h : Blames c run) (h' : Blames run.2 run') : Blames c run' := by
  have hsubset := Cursor.toEnd_subset h.precedes.rest h.precedes.eof
  refine ⟨h.precedes.trans h'.precedes, fun e he => ?_, fun e he => (h'.failed e he).mono hsubset⟩
  rcases h'.recorded e he with he | he
  · exact h.recorded e he
  · exact .inr (he.mono hsubset)

theorem argumentOrPlaceholder_blames {sub : SubReader} (h : Blames c (argument sub c)) :
    Blames c (argumentOrPlaceholder sub c) := by
  rcases yields_or_fails (argument sub) c with ⟨arg, c₁, hy⟩ | ⟨e, c₁, hf⟩
  · rw [hy] at h
    rw [argumentOrPlaceholder_of_yields hy]
    exact h.later (.of_ok c₁.precedes_advance rfl)
  · have hp := argumentOrPlaceholder_precedes h.precedes
    rw [hf] at h
    cases hs : splitAtStop? [.mark .comma, .mark .rparen] 0 c.rest with
    | none => rwa [argumentOrPlaceholder_fails_iff.mpr ⟨hf, hs⟩]
    | some split =>
      -- the error is recorded
      have hy := recover_yields_iff (c := c₁) (e := e).mpr ⟨_, _, hs, rfl, rfl⟩
      rw [argumentOrPlaceholder_yields_iff.mpr (.inr ⟨e, c₁, hf, hy⟩)] at hp ⊢
      refine ⟨hp, fun e' he' => ?_, fun _ he => by cases he⟩
      rcases List.mem_append.mp he' with he' | he'
      · exact h.recorded e' he'
      · rw [List.mem_singleton.mp he']
        exact .inr (h.failed e rfl)

theorem blames_congruence : Congruence fun c x _ => Blames c (x c) where
  pure _ := .of_ok (.refl _) rfl
  throw h := ⟨.refl _, fun _ he => .inl he, fun _ he => by cases he; exact h⟩
  bind {α β c x x' f f'} hx hf := by
    rcases yields_or_fails x c with ⟨a, c₁, hy⟩ | ⟨e, c₁, hy⟩
    · rw [hy] at hx
      rw [bind_run, hy]
      exact hx.later (hf a c₁ hy)
    · rw [hy] at hx
      rw [bind_run, hy]
      exact ⟨hx.precedes, hx.recorded, fun e' he => hx.failed e' (by cases he; rfl)⟩
  current := .of_ok (.refl _) rfl
  peek := .of_ok (.refl _) rfl
  advance := .of_ok (Cursor.precedes_advance _) rfl
  remaining hx _ := hx _
  recovered := argumentOrPlaceholder_blames

/-- All errors recorded blame tokens of the text. -/
theorem statements_blame (steps : Nat) :
    ∀ e ∈ (statements steps c).2.errors, e ∈ c.errors ∨ e.Within c.toEnd := by
  induction steps generalizing c with
  | zero => exact fun e he => .inl he
  | succ steps ih =>
    -- what is blamed from a later cursor on is blamed from this one on
    have later {c' : Cursor} (hrest : c'.rest <:+ c.rest) (heof : c'.eof = c.eof)
        (herrors : ∀ e ∈ c'.errors, e ∈ c.errors ∨ e.Within c.toEnd) :
        ∀ e ∈ (statements steps c').2.errors, e ∈ c.errors ∨ e.Within c.toEnd := fun e he =>
      (ih e he).elim (herrors e) fun h => .inr (h.mono (Cursor.toEnd_subset hrest heof))
    by_cases hne : c.rest = []
    · rw [statements_of_rest_nil hne]
      exact fun e he => .inl he
    by_cases hk : c.current.kind = .mark .semicolon
    · rw [statements_of_semicolon hne hk]
      exact later (List.tail_suffix _) rfl fun e he => .inl he
    have hstatement : Blames c (statement c) := blames_congruence.statement
    rcases yields_or_fails statement c with ⟨s, c₁, hy⟩ | ⟨e, c₁, hf⟩
    · rw [hy] at hstatement
      rw [statements_of_yields hne hk hy]
      exact later ((List.tail_suffix _).trans hstatement.precedes.rest) hstatement.precedes.eof
        hstatement.recorded
    · rw [hf] at hstatement
      have hp : c.Precedes (c₁.record e) := hstatement.precedes.trans (c₁.precedes_record e)
      rw [statements_of_fails hne hk hf]
      refine later (synchronize_rest hp hne).1 ((synchronize_eof _).trans hp.eof) fun e' he' => ?_
      rw [synchronize_errors] at he'
      rcases List.mem_append.mp he' with he' | he'
      · exact hstatement.recorded e' he'
      · rw [List.mem_singleton.mp he']
        exact .inr (hstatement.failed e rfl)

end Read

theorem parse_errors_within (source : String) : ∀ e ∈ (parse source).errors,
    e.Within (tokenize source ++ [.endOf (.ofString source)]) := fun e he =>
  (Read.statements_blame (c := ⟨tokenize source, _, []⟩) _ e he).resolve_left List.not_mem_nil

/-! ### Causes that the shapes of tokens leave open -/

section Shapes

variable {t : Token} (ht : t.kind ≠ .eof → t.piece.IsRead)
include ht

theorem not_foundAt_invalidNumber : ¬ SyntaxError.Cause.invalidNumber.FoundAt t := by
  rintro ⟨hk, hnone⟩
  obtain ⟨d, hd⟩ := (ht (by rcases hk with hk | hk <;> simp [hk])).numeral hk
  cases hnone.symm.trans hd

theorem mem_of_foundAt_invalidDate {error : CalendarError}
    (h : (SyntaxError.Cause.invalidDate error).FoundAt t) :
    error ∈ [.dateOutOfBounds, .noSuchDay] := by
  obtain ⟨hk, herror⟩ := h
  obtain ⟨d, hd⟩ : ∃ d, Date.fields? t.literal.toList = some d := (ht (by simp [hk])).date_fields hk
  rw [Date.ofChars_of_fields hd] at herror
  split at herror
  · cases herror
    decide
  · split at herror <;> cases herror
    decide

theorem eq_of_foundAt_invalidTime {error : CalendarError}
    (h : (SyntaxError.Cause.invalidTime error).FoundAt t) : error = .timeOutOfRange := by
  obtain ⟨hk, herror⟩ := h
  obtain ⟨c, hc⟩ : ∃ c, Clock.fields? t.literal.toList = some c :=
    (ht (by simp [hk])).time_fields hk
  rw [Clock.ofChars_of_fields hc] at herror
  split at herror <;> cases herror
  rfl

theorem literal_of_foundAt_blankName (h : SyntaxError.Cause.blankName.FoundAt t) :
    t.literal = "_" := by
  obtain ⟨hk, hliteral⟩ := h
  refine hliteral.resolve_left fun hempty => ?_
  obtain ⟨⟨c, body, htext, -⟩, -⟩ := (ht (by simp [hk])).word (.inl hk)
  rw [show t.piece.2 = "" from hempty] at htext
  cases htext

theorem isReserved_of_foundAt (h : SyntaxError.Cause.reservedWord.FoundAt t) :
    Word.isReserved t.literal := by
  rcases h with hreserved | hk
  · exact hreserved
  -- a function or a keyword is a word that is no identifier
  have hword := ht (by rcases hk with hk | ⟨w, hk⟩ <;> simp [hk])
  have hclassify : Word.classify t.literal = t.kind := (hword.word (.inr hk)).2
  by_contra hident
  have hkind := hclassify.symm.trans (Word.classify_eq_ident_iff.mpr (by simpa using hident))
  rcases hk with hk | ⟨w, hk⟩ <;> cases hkind.symm.trans hk

end Shapes

/-- No number is refused, a date or a time only for a day or a minute that there is not, a name as
blank only if it is an underscore and as reserved only if it is a keyword or the name of a function,
whatever the case of its letters. -/
theorem parse_errors_borne_out (source : String) : ∀ e ∈ (parse source).errors,
    e.cause ≠ .invalidNumber ∧
      (∀ error, e.cause = .invalidDate error → error ∈ [.dateOutOfBounds, .noSuchDay]) ∧
      (∀ error, e.cause = .invalidTime error → error = .timeOutOfRange) ∧
      (e.cause = .blankName → e.token.literal = "_") ∧
      (e.cause = .reservedWord → Text.lowercase e.token.literal ∈ Word.reserved) := by
  intro e he
  obtain ⟨hmem, hfound⟩ := parse_errors_within source e he
  have ht : e.token.kind ≠ .eof → e.token.piece.IsRead := by
    intro hk
    rcases List.mem_append.mp hmem with hmem | hmem
    · exact tokenize_isRead hmem
    · rw [List.mem_singleton.mp hmem] at hk
      exact absurd rfl hk
  refine ⟨fun hc => ?_, fun error hc => ?_, fun error hc => ?_, fun hc => ?_, fun hc => ?_⟩ <;>
    rw [hc] at hfound
  · exact not_foundAt_invalidNumber ht hfound
  · exact mem_of_foundAt_invalidDate ht hfound
  · exact eq_of_foundAt_invalidTime ht hfound
  · exact literal_of_foundAt_blankName ht hfound
  · exact Word.isReserved_iff.mp (isReserved_of_foundAt ht hfound)

/-- Both errors of a date, the one of a time and a reserved word that spells an operator. -/
theorem parse_errors_borne_out_each :
    let errors :=
      (parse "\x7b1899-12-31\x7d; \x7b2023-02-30\x7d; \x7b24:00\x7d; alias Or;").errors
    errors.map (fun e => (e.cause, e.token.literal)) =
        [(.invalidDate .dateOutOfBounds, "\x7b1899-12-31\x7d"),
          (.invalidDate .noSuchDay, "\x7b2023-02-30\x7d"),
          (.invalidTime .timeOutOfRange, "\x7b24:00\x7d"), (.reservedWord, "Or")] ∧
      ∀ e ∈ errors, e.cause ≠ .invalidNumber ∧
        (∀ error, e.cause = .invalidDate error → error ∈ [.dateOutOfBounds, .noSuchDay]) ∧
        (∀ error, e.cause = .invalidTime error → error = .timeOutOfRange) ∧
        (e.cause = .blankName → e.token.literal = "_") ∧
        (e.cause = .reservedWord → Text.lowercase e.token.literal ∈ Word.reserved) :=
  ⟨by decide +kernel, parse_errors_borne_out _⟩

end PayFormula
