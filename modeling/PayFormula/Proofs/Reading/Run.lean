import PayFormula.Parse.Program

/-!
# Runs of readers

A run of a reader yields a value or fails, and leaves the cursor somewhere. The
lemmas here take a run apart: what the primitive readers do to the cursor, and
what a run of two readers in sequence says about each of them. Everything else
about readers is proved through these, so that no later proof opens the monad.
-/
namespace PayFormula

/-- A token that can be declared or referred to as a variable. -/
structure Token.IsName (t : Token) : Prop where
  kind : t.kind = .ident
  nonempty : t.literal ≠ ""
  not_blank : t.literal ≠ "_"
  not_reserved : Word.isReserved t.literal = false

namespace Cursor

@[simp] theorem advance_rest (c : Cursor) : c.advance.rest = c.following := rfl
@[simp] theorem advance_eof (c : Cursor) : c.advance.eof = c.eof := rfl
@[simp] theorem advance_errors (c : Cursor) : c.advance.errors = c.errors := rfl
@[simp] theorem advance_current (c : Cursor) : c.advance.current = c.peek := rfl

end Cursor

namespace Read

variable {α β : Type} {c c' : Cursor} {a : α} {b : β} {e : SyntaxError}

/-- From one cursor the reader yields a value and leaves the cursor at another. -/
def Yields (x : Read α) (c : Cursor) (a : α) (c' : Cursor) : Prop := x c = (.ok a, c')

/-- From one cursor the reader fails and leaves the cursor at another. -/
def Fails (x : Read α) (c : Cursor) (e : SyntaxError) (c' : Cursor) : Prop :=
  x c = (.error e, c')

theorem yields_or_fails (x : Read α) (c : Cursor) :
    (∃ a c', Yields x c a c') ∨ ∃ e c', Fails x c e c' := by
  rcases h : x c with ⟨_ | a, c'⟩
  · exact .inr ⟨_, c', h⟩
  · exact .inl ⟨a, c', h⟩

theorem Fails.unique {x : Read α} (h : Fails x c e c') {e' : SyntaxError} {c₁ : Cursor}
    (h' : Fails x c e' c₁) : e' = e := by
  cases h'.symm.trans h
  rfl

theorem bind_run (x : Read α) (f : α → Read β) (c : Cursor) :
    (x >>= f) c = match x c with
      | (.ok a, c₁) => f a c₁
      | (.error e, c₁) => (.error e, c₁) := by
  change (ExceptT.bindCont f (x c).1) (x c).2 = _
  rcases x c with ⟨_ | _, _⟩ <;> rfl

theorem current_bind_run {f : Token → Read β} : (current >>= f) c = f c.current c := rfl

theorem peek_bind_run {f : Token → Read β} : (peek >>= f) c = f c.peek c := rfl

theorem rest_bind_run {f : List Token → Read β} : (rest >>= f) c = f c.rest c := rfl

theorem advance_bind_run {f : Unit → Read β} : (advance >>= f) c = f () c.advance := rfl

theorem bind_yields_iff {x : Read α} {f : α → Read β} :
    Yields (x >>= f) c b c' ↔ ∃ a c₁, Yields x c a c₁ ∧ Yields (f a) c₁ b c' := by
  unfold Yields
  rw [bind_run]
  rcases x c with ⟨e | a, c₁⟩
  · constructor
    · intro h
      cases congrArg Prod.fst h
    · rintro ⟨a, c₂, h, _⟩
      cases congrArg Prod.fst h
  · constructor
    · exact fun h => ⟨a, c₁, rfl, h⟩
    · rintro ⟨a', c₂, h, hf⟩
      cases h
      exact hf

theorem bind_fails_iff {x : Read α} {f : α → Read β} :
    Fails (x >>= f) c e c' ↔
      Fails x c e c' ∨ ∃ a c₁, Yields x c a c₁ ∧ Fails (f a) c₁ e c' := by
  unfold Fails Yields
  rw [bind_run]
  rcases x c with ⟨e₁ | a, c₁⟩
  · constructor
    · intro h
      cases h
      exact .inl rfl
    · rintro (h | ⟨a, c₂, h, _⟩)
      · cases h
        rfl
      · cases congrArg Prod.fst h
  · constructor
    · exact fun h => .inr ⟨a, c₁, rfl, h⟩
    · rintro (h | ⟨a', c₂, h, hf⟩)
      · cases congrArg Prod.fst h
      · cases h
        exact hf

@[simp] theorem pure_yields_iff {a' : α} : Yields (pure a) c a' c' ↔ a' = a ∧ c' = c := by
  constructor
  · intro h
    cases h
    exact ⟨rfl, rfl⟩
  · rintro ⟨rfl, rfl⟩
    rfl

@[simp] theorem not_fail_yields {cause : SyntaxError.Cause} {t : Token} :
    ¬ Yields (fail cause t) c a c' := fun h => by cases congrArg Prod.fst h

@[simp] theorem not_throw_yields : ¬ Yields (throw e : Read α) c a c' :=
  fun h => by cases congrArg Prod.fst h

@[simp] theorem throw_fails_iff {e' : SyntaxError} :
    Fails (throw e : Read α) c e' c' ↔ e' = e ∧ c' = c := by
  constructor
  · intro h
    cases h
    exact ⟨rfl, rfl⟩
  · rintro ⟨rfl, rfl⟩
    rfl

@[simp] theorem fail_fails_iff {cause : SyntaxError.Cause} {t : Token} :
    Fails (fail cause t : Read α) c e c' ↔ e = ⟨cause, t⟩ ∧ c' = c := by
  constructor
  · intro h
    cases h
    exact ⟨rfl, rfl⟩
  · rintro ⟨rfl, rfl⟩
    rfl

section Steps

variable {f : Token → Read β}

@[simp] theorem current_bind_yields_iff :
    Yields (current >>= f) c b c' ↔ Yields (f c.current) c b c' := Iff.rfl

@[simp] theorem peek_bind_yields_iff :
    Yields (peek >>= f) c b c' ↔ Yields (f c.peek) c b c' := Iff.rfl

@[simp] theorem advance_bind_yields_iff {f : Unit → Read β} :
    Yields (advance >>= f) c b c' ↔ Yields (f ()) c.advance b c' := Iff.rfl

@[simp] theorem rest_bind_yields_iff {f : List Token → Read β} :
    Yields (rest >>= f) c b c' ↔ Yields (f c.rest) c b c' := Iff.rfl

@[simp] theorem remaining_bind_yields_iff {f : Nat → Read β} :
    Yields (remaining >>= f) c b c' ↔ Yields (f c.rest.length) c b c' := Iff.rfl

@[simp] theorem record_bind_yields_iff {f : Unit → Read β} :
    Yields (record e >>= f) c b c' ↔ Yields (f ()) (c.record e) b c' := Iff.rfl

@[simp] theorem seek_bind_yields_iff {tokens : List Token} {f : Unit → Read β} :
    Yields (seek tokens >>= f) c b c' ↔ Yields (f ()) { c with rest := tokens } b c' := Iff.rfl

@[simp] theorem current_bind_fails_iff :
    Fails (current >>= f) c e c' ↔ Fails (f c.current) c e c' := Iff.rfl

@[simp] theorem rest_bind_fails_iff {f : List Token → Read β} :
    Fails (rest >>= f) c e c' ↔ Fails (f c.rest) c e c' := Iff.rfl

@[simp] theorem remaining_bind_fails_iff {f : Nat → Read β} :
    Fails (remaining >>= f) c e c' ↔ Fails (f c.rest.length) c e c' := Iff.rfl

end Steps

theorem attempt_bind_yields_iff {x : Read α} {f : Except SyntaxError α → Read β} :
    Yields (attempt x >>= f) c b c' ↔
      (∃ a c₁, Yields x c a c₁ ∧ Yields (f (.ok a)) c₁ b c') ∨
        ∃ e c₁, Fails x c e c₁ ∧ Yields (f (.error e)) c₁ b c' := by
  change Yields (f (x c).1) (x c).2 b c' ↔ _
  unfold Fails Yields
  rcases x c with ⟨e | a, c₁⟩
  · constructor
    · exact fun h => .inr ⟨e, c₁, rfl, h⟩
    · rintro (⟨a, c₂, h, _⟩ | ⟨e', c₂, h, hf⟩)
      · cases congrArg Prod.fst h
      · cases h
        exact hf
  · constructor
    · exact fun h => .inl ⟨a, c₁, rfl, h⟩
    · rintro (⟨a', c₂, h, hf⟩ | ⟨e, c₂, h, _⟩)
      · cases h
        exact hf
      · cases congrArg Prod.fst h

theorem attempt_bind_fails_iff {x : Read α} {f : Except SyntaxError α → Read β} :
    Fails (attempt x >>= f) c e c' ↔
      (∃ a c₁, Yields x c a c₁ ∧ Fails (f (.ok a)) c₁ e c') ∨
        ∃ e₁ c₁, Fails x c e₁ c₁ ∧ Fails (f (.error e₁)) c₁ e c' := by
  change Fails (f (x c).1) (x c).2 e c' ↔ _
  unfold Fails Yields
  rcases x c with ⟨e₁ | a, c₁⟩
  · constructor
    · exact fun h => .inr ⟨e₁, c₁, rfl, h⟩
    · rintro (⟨a, c₂, h, _⟩ | ⟨e', c₂, h, hf⟩)
      · cases congrArg Prod.fst h
      · cases h
        exact hf
  · constructor
    · exact fun h => .inl ⟨a, c₁, rfl, h⟩
    · rintro (⟨a', c₂, h, hf⟩ | ⟨e', c₂, h, _⟩)
      · cases h
        exact hf
      · cases congrArg Prod.fst h

theorem expect_yields_iff {kind : TokenKind} {t : Token} :
    Yields (expect kind) c t c' ↔ c.peek.kind = kind ∧ t = c.peek ∧ c' = c.advance := by
  simp only [expect, peek_bind_yields_iff]
  split
  · rename_i h
    simp only [advance_bind_yields_iff, pure_yields_iff, h, true_and]
  · rename_i h
    simp [h]

theorem expectClosing_yields_iff {opening closing : Mark} {t : Token} :
    Yields (expectClosing opening closing) c t c' ↔
      c.peek.kind = .mark closing ∧ t = c.peek ∧ c' = c.advance := by
  simp only [expectClosing, peek_bind_yields_iff]
  split
  · rename_i h
    simp only [advance_bind_yields_iff, pure_yields_iff, h, true_and]
  · rename_i h
    simp [h]

theorem ident_yields_iff {i : Ident} : Yields ident c i c' ↔
    c.current.literal ≠ "" ∧ c.current.literal ≠ "_" ∧ Word.isReserved c.current.literal = false ∧
      i = ⟨c.current⟩ ∧ c' = c := by
  simp only [ident, current_bind_yields_iff]
  split
  · rename_i h
    rcases h with h | h <;> simp [h]
  · rename_i h
    simp only [not_or] at h
    split
    · rename_i hr
      simp [hr]
    · rename_i hr
      simp [h, hr]

theorem expectName_yields_iff {i : Ident} : Yields expectName c i c' ↔
    c.peek.IsName ∧ i = ⟨c.peek⟩ ∧ c' = c.advance := by
  simp only [expectName, peek_bind_yields_iff]
  cases hk : c.peek.kind with
  | ident =>
    rw [advance_bind_yields_iff, ident_yields_iff]
    exact ⟨fun ⟨h₁, h₂, h₃, h₄, h₅⟩ => ⟨⟨hk, h₁, h₂, h₃⟩, h₄, h₅⟩,
      fun ⟨⟨_, h₁, h₂, h₃⟩, h₄, h₅⟩ => ⟨h₁, h₂, h₃, h₄, h₅⟩⟩
  | mark m =>
    have hn : ¬ c.peek.IsName := fun h => by simp [h.kind] at hk
    simp only [hn, false_and, iff_false]
    split <;> simp
  | _ =>
    have hn : ¬ c.peek.IsName := fun h => by simp [h.kind] at hk
    simp [hn]

theorem nameClause_yields_iff {a : NameClause} : Yields nameClause c a c' ↔
    c.peek.IsName ∧ a = ⟨c.current, ⟨c.peek⟩⟩ ∧ c' = c.advance := by
  rw [nameClause, current_bind_yields_iff, bind_yields_iff]
  constructor
  · rintro ⟨i, c₁, hi, h⟩
    obtain ⟨hn, rfl, rfl⟩ := expectName_yields_iff.mp hi
    obtain ⟨rfl, rfl⟩ := pure_yields_iff.mp h
    exact ⟨hn, rfl, rfl⟩
  · rintro ⟨hn, rfl, rfl⟩
    exact ⟨_, _, expectName_yields_iff.mpr ⟨hn, rfl, rfl⟩, pure_yields_iff.mpr ⟨rfl, rfl⟩⟩

theorem recover_yields_iff {start : List Token} {a : Expr} : Yields (recover start e) c a c' ↔
    ∃ skipped stop, splitAtStop? [.mark .comma, .mark .rparen] 0 start = some (skipped, stop) ∧
      a = .failed e (skipped.filter (!·.kind.isComment)) ∧
      c' = { c.record e with rest := stop } := by
  unfold recover
  cases hs : splitAtStop? [.mark .comma, .mark .rparen] 0 start with
  | none => simp
  | some split =>
    obtain ⟨skipped, stop⟩ := split
    simp only [record_bind_yields_iff, seek_bind_yields_iff, pure_yields_iff, Option.some.injEq,
      Prod.mk.injEq]
    constructor
    · exact fun ⟨h, h'⟩ => ⟨_, _, ⟨rfl, rfl⟩, h, h'⟩
    · rintro ⟨_, _, ⟨rfl, rfl⟩, h, h'⟩
      exact ⟨h, h'⟩

theorem recover_fails_iff {start : List Token} {e' : SyntaxError} :
    Fails (recover start e) c e' c' ↔
      splitAtStop? [.mark .comma, .mark .rparen] 0 start = none ∧ e' = e ∧ c' = c := by
  unfold recover
  cases hs : splitAtStop? [.mark .comma, .mark .rparen] 0 start with
  | none => simp
  | some split =>
    obtain ⟨skipped, stop⟩ := split
    simp only [reduceCtorEq, false_and, iff_false]
    intro h
    cases congrArg Prod.fst h

theorem argumentOrPlaceholder_of_yields {sub : SubReader} {arg : Expr}
    (h : Yields (argument sub) c arg c') :
    Yields (argumentOrPlaceholder sub) c arg c'.advance := by
  rw [argumentOrPlaceholder, rest_bind_yields_iff, attempt_bind_yields_iff]
  exact .inl ⟨arg, c', h, advance_bind_yields_iff.mpr (pure_yields_iff.mpr ⟨rfl, rfl⟩)⟩

theorem argumentOrPlaceholder_yields_iff {sub : SubReader} {arg : Expr} :
    Yields (argumentOrPlaceholder sub) c arg c' ↔
      (∃ c₁, Yields (argument sub) c arg c₁ ∧ c' = c₁.advance) ∨
        ∃ e c₁, Fails (argument sub) c e c₁ ∧ Yields (recover c.rest e) c₁ arg c' := by
  constructor
  · intro h
    rw [argumentOrPlaceholder, rest_bind_yields_iff, attempt_bind_yields_iff] at h
    rcases h with ⟨a, c₁, ha, h⟩ | h
    · obtain ⟨rfl, rfl⟩ := pure_yields_iff.mp
        (show Yields (advance >>= fun _ => pure a) c₁ arg c' from h)
      exact .inl ⟨c₁, ha, rfl⟩
    · exact .inr h
  · rintro (⟨c₁, ha, rfl⟩ | h)
    · exact argumentOrPlaceholder_of_yields ha
    · rw [argumentOrPlaceholder, rest_bind_yields_iff, attempt_bind_yields_iff]
      exact .inr h

theorem argumentOrPlaceholder_fails_iff {sub : SubReader} :
    Fails (argumentOrPlaceholder sub) c e c' ↔ Fails (argument sub) c e c' ∧
      splitAtStop? [.mark .comma, .mark .rparen] 0 c.rest = none := by
  rw [argumentOrPlaceholder, rest_bind_fails_iff, attempt_bind_fails_iff]
  constructor
  · rintro (⟨a, c₁, -, h⟩ | ⟨e₁, c₁, ha, h⟩)
    · cases congrArg Prod.fst h
    · obtain ⟨hn, rfl, rfl⟩ := recover_fails_iff.mp h
      exact ⟨ha, hn⟩
  · rintro ⟨ha, hn⟩
    exact .inr ⟨e, c', ha, recover_fails_iff.mpr ⟨hn, rfl, rfl⟩⟩

/-! ### Statement by statement -/

/-- A statement is a binding, a comment or an expression, with the semicolon behind it if there is
one. -/
theorem statement_yields_iff {s : Statement} : Yields statement c s c' ↔
    (c.current.kind = .keyword .varWord ∧
      ∃ b, Yields (binding (expression nestingLimit)) c b c' ∧ s = .binding b) ∨
    (c.current.kind = .lineComment ∧ s = .lineComment ⟨c.current⟩ ∧ c' = c) ∨
    (c.current.kind = .blockComment ∧ s = .blockComment ⟨c.current⟩ ∧ c' = c) ∨
    (c.current.kind ≠ .keyword .varWord ∧ c.current.kind ≠ .lineComment ∧
      c.current.kind ≠ .blockComment ∧
      ∃ e c₁, Yields (expression nestingLimit .lowest) c e c₁ ∧ s = .expression e ∧
        c' = if c₁.peek.kind = .mark .semicolon then c₁.advance else c₁) := by
  rw [statement, current_bind_yields_iff]
  split
  · rename_i hk
    have hbound : Yields (binding (expression nestingLimit) >>= fun b => pure (.binding b)) c s c' ↔
        ∃ b, Yields (binding (expression nestingLimit)) c b c' ∧ s = .binding b := by
      rw [bind_yields_iff]
      refine exists_congr fun b => ⟨?_, fun ⟨hb, hs⟩ => ⟨c', hb, pure_yields_iff.mpr ⟨hs, rfl⟩⟩⟩
      rintro ⟨c₁, hb, hs⟩
      obtain ⟨rfl, rfl⟩ := pure_yields_iff.mp hs
      exact ⟨hb, rfl⟩
    refine hbound.trans ?_
    simp [hk]
  · rename_i hk
    simp [hk]
  · rename_i hk
    simp [hk]
  · rename_i hvar hline hblock
    have hother : Yields (expression nestingLimit .lowest >>= fun value => peek >>= fun next =>
        if next.kind = .mark .semicolon then advance >>= fun _ => pure (.expression value)
        else pure (.expression value)) c s c' ↔
          ∃ e c₁, Yields (expression nestingLimit .lowest) c e c₁ ∧ s = .expression e ∧
            c' = if c₁.peek.kind = .mark .semicolon then c₁.advance else c₁ := by
      rw [bind_yields_iff]
      refine exists_congr fun e => exists_congr fun c₁ => and_congr_right fun _ => ?_
      rw [peek_bind_yields_iff]
      split
      · rw [advance_bind_yields_iff, pure_yields_iff]
      · exact pure_yields_iff
    refine hother.trans ?_
    simp [show c.current.kind ≠ _ from hvar, show c.current.kind ≠ _ from hline,
      show c.current.kind ≠ _ from hblock]

section Statements

variable {steps : Nat}

theorem statements_of_rest_nil (h : c.rest = []) : statements steps c = ([], c) := by
  cases steps with
  | zero => rfl
  | succ steps => rw [statements, h, List.isEmpty_nil, if_pos rfl]

variable (hne : c.rest ≠ [])
include hne

theorem statements_of_semicolon (hk : c.current.kind = .mark .semicolon) :
    statements (steps + 1) c = statements steps c.step := by
  rw [statements, if_neg (by simpa using hne), if_pos hk]

variable (hk : c.current.kind ≠ .mark .semicolon)
include hk

theorem statements_of_yields {s : Statement} (h : Yields statement c s c') :
    statements (steps + 1) c =
      (s :: (statements steps c'.step).1, (statements steps c'.step).2) := by
  rw [statements, if_neg (by simpa using hne), if_neg hk, h]

theorem statements_of_fails (h : Fails statement c e c') :
    statements (steps + 1) c = statements steps (c'.record e).synchronize := by
  rw [statements, if_neg (by simpa using hne), if_neg hk, h]

end Statements

end Read

end PayFormula
