import PayFormula.Proofs.Grammar.Program
import PayFormula.Proofs.Reading.Related

/-!
# Reading comes to an end

The tokens left bound every repetition of a reader, but no repetition ever gets
to its bound: each of its rounds leaves fewer tokens than the one before, also
where an argument is recovered by going back. So the rounds come to an end when
nothing bounds them, and they end as the bounded repetition does.

An expression is read by reading others, with fewer levels of nesting left. Each
of these starts further on: whatever is put in place of the reader of expressions
at the cursors that are not further on, the same is read.
-/
namespace PayFormula

namespace Cursor

/-- The index of the current token among all tokens of a text. -/
def index (tokens : List Token) (c : Cursor) : Nat := tokens.length - c.rest.length

/-- A cursor in a text of some tokens. -/
structure In (tokens : List Token) (eof : Token) (c : Cursor) : Prop where
  rest : c.rest <:+ tokens
  eof : c.eof = eof

variable {tokens : List Token} {eof : Token} {c c₁ : Cursor}

theorem In.precedes (h : c.In tokens eof) (hp : c.Precedes c₁) : c₁.In tokens eof :=
  ⟨hp.rest.trans h.rest, hp.eof.trans h.eof⟩

theorem In.index_lt (h : c.In tokens eof) (hlt : c₁.rest.length < c.rest.length) :
    c.index tokens < c₁.index tokens := by
  have := h.rest.length_le
  unfold index
  omega

end Cursor

namespace Read

open Grammar

variable {α β : Type} {c c' : Cursor} {sub sub' : SubReader}

/-! ### Rounds with no bound -/

/-- A round of a repetition reads some items and may ask for another round. One round follows
another as long as the last one asks for it. -/
inductive Repeats (round : Read (List α × Bool)) :
    Cursor → Except SyntaxError (List α) → Cursor → Prop
  | fails {c c' : Cursor} {e : SyntaxError} : Fails round c e c' → Repeats round c (.error e) c'
  | last {c c' : Cursor} {items : List α} : Yields round c (items, false) c' →
      Repeats round c (.ok items) c'
  | next {c c₁ c' : Cursor} {items : List α} {result : Except SyntaxError (List α)} :
      Yields round c (items, true) c₁ → Repeats round c₁ result c' →
      Repeats round c (result.map (items ++ ·)) c'

/-- One round, and what comes later if it asks for another one. -/
def unroll (round : Read (List α × Bool)) (later : Read (List α)) : Read (List α) := do
  let (items, again) ← round
  if again then
    return items ++ (← later)
  else return items

section Unroll

variable {round : Read (List α × Bool)} {later : Read (List α)} {items : List α}

theorem unroll_of_fails {e : SyntaxError} (h : Fails round c e c') :
    unroll round later c = (.error e, c') := by
  rw [unroll, bind_run, h]

theorem unroll_of_last (h : Yields round c (items, false) c') :
    unroll round later c = (.ok items, c') := by
  rw [unroll, bind_run, h]
  rfl

theorem unroll_of_next (h : Yields round c (items, true) c') :
    unroll round later c = ((later c').1.map (items ++ ·), (later c').2) := by
  rw [unroll, bind_run, h]
  change (later >>= fun others => pure (items ++ others)) c' = _
  rw [bind_run]
  rcases later c' with ⟨_ | _, _⟩ <;> rfl

/-- There is one way for the rounds to end. -/
theorem Repeats.unique {result result' : Except SyntaxError (List α)} {c₁ c₂ : Cursor}
    (h : Repeats round c result c₁) (h' : Repeats round c result' c₂) :
    result' = result ∧ c₂ = c₁ := by
  induction h generalizing result' c₂ with
  | fails h =>
    cases h' with
    | fails h' =>
      cases h.symm.trans h'
      exact ⟨rfl, rfl⟩
    | last h' | next h' _ => cases congrArg Prod.fst (h.symm.trans h')
  | last h =>
    cases h' with
    | fails h' => cases congrArg Prod.fst (h.symm.trans h')
    | last h' =>
      cases h.symm.trans h'
      exact ⟨rfl, rfl⟩
    | next h' _ => cases congrArg Prod.fst (h.symm.trans h')
  | next h _ ih =>
    cases h' with
    | fails h' | last h' => cases congrArg Prod.fst (h.symm.trans h')
    | next h' hrest =>
      cases h.symm.trans h'
      obtain ⟨rfl, rfl⟩ := ih hrest
      exact ⟨rfl, rfl⟩

end Unroll

/-- A repetition with a bound does one round after another, from cursors with some property, which
leave ever fewer tokens. -/
structure Bounded (round : Read (List α × Bool)) (loop : Nat → Read (List α)) (P : Cursor → Prop) :
    Prop where
  zero {c : Cursor} : P c → c.rest = [] → Repeats round c (loop 0 c).1 (loop 0 c).2
  succ (n : Nat) (c : Cursor) : loop (n + 1) c = unroll round (loop n) c
  progress {c c' : Cursor} {items : List α} : P c → Yields round c (items, true) c' →
    P c' ∧ c'.rest.length < c.rest.length

/-- The tokens left are bound enough: without any bound the rounds end in the same way. -/
theorem Bounded.repeats_iff {round : Read (List α × Bool)} {loop : Nat → Read (List α)}
    {P : Cursor → Prop}
    (h : Bounded round loop P) (hc : P c) {n : Nat} (hn : c.rest.length ≤ n)
    {result : Except SyntaxError (List α)} :
    Repeats round c result c' ↔ loop n c = (result, c') := by
  have hends : Repeats round c (loop n c).1 (loop n c).2 := by
    induction n generalizing c with
    | zero => exact h.zero hc (List.length_eq_zero_iff.mp (Nat.le_zero.mp hn))
    | succ n ih =>
      rw [h.succ]
      rcases yields_or_fails round c with ⟨⟨items, again⟩, c₁, hy⟩ | ⟨e, c₁, hf⟩
      · cases again with
        | false =>
          rw [unroll_of_last hy]
          exact .last hy
        | true =>
          obtain ⟨hc₁, hlt⟩ := h.progress hc hy
          rw [unroll_of_next hy]
          exact .next hy (ih hc₁ (by omega))
      · rw [unroll_of_fails hf]
        exact .fails hf
  constructor
  · intro hr
    obtain ⟨hresult, hcursor⟩ := hr.unique hends
    exact Prod.ext hresult hcursor
  · intro hrun
    rwa [hrun] at hends

/-! ### The repetitions -/

def stringRound : Read (List StringLiteral × Bool) := do
  let next ← peek
  if next.kind = .string then
    advance
    if (← peek).kind = .mark .comma then
      advance
      return ([⟨next⟩], true)
    else return ([⟨next⟩], false)
  else return ([], false)

def bindingRound (sub : SubReader) : Read (List Binding × Bool) := do
  if (← current).kind = .keyword .varWord then
    let first ← binding sub
    advance
    return ([first], true)
  else return ([], false)

def macroRound (sub : SubReader) : Read (List Expr × Bool) := do
  advance
  let arg ← sub .lowest
  if (← peek).kind = .mark .comma then
    advance
    return ([arg], true)
  else return ([arg], false)

/-- An argument of a builtin call is the last one if a closing parenthesis follows. -/
def argumentRound (sub : SubReader) : Read (List Expr × Bool) := do
  advance
  let arg ← argumentOrPlaceholder sub
  return ([arg], (← current).kind ≠ .mark .rparen)

/-- One step of reading a program, as long as there are tokens. -/
def statementRound : Read (List Statement × Bool) := fun c =>
  if c.rest.isEmpty then (.ok ([], false), c)
  else if c.current.kind = .mark .semicolon then (.ok ([], true), c.step)
  else match statement c with
    | (.ok s, c) => (.ok ([s], true), c.step)
    | (.error e, c) => (.ok ([], true), (c.record e).synchronize)

theorem strings_unroll (n : Nat) (c : Cursor) :
    strings (n + 1) c = unroll stringRound (strings n) c := by
  rw [strings, unroll, stringRound, peek_bind_run, bind_run, peek_bind_run]
  by_cases hstring : c.peek.kind = .string
  · rw [if_pos hstring, if_pos hstring, advance_bind_run, advance_bind_run, peek_bind_run,
      peek_bind_run]
    by_cases hcomma : c.advance.peek.kind = .mark .comma
    · rw [if_pos hcomma, if_pos hcomma]
      rfl
    · rw [if_neg hcomma, if_neg hcomma]
      rfl
  · rw [if_neg hstring, if_neg hstring]
    rfl

theorem bindings_unroll (n : Nat) (c : Cursor) :
    bindings sub (n + 1) c = unroll (bindingRound sub) (bindings sub n) c := by
  rw [bindings, unroll, bindingRound, current_bind_run, bind_run, current_bind_run]
  by_cases hvar : c.current.kind = .keyword .varWord
  · rw [if_pos hvar, if_pos hvar, bind_run, bind_run]
    rcases binding sub c with ⟨_ | b, c₁⟩ <;> rfl
  · rw [if_neg hvar, if_neg hvar]
    rfl

theorem macroArgs_unroll (n : Nat) (c : Cursor) :
    macroArgs sub (n + 1) c = unroll (macroRound sub) (macroArgs sub n) c := by
  rw [macroArgs, advance_bind_run, bind_run, unroll, macroRound, bind_run, advance_bind_run,
    bind_run]
  rcases sub .lowest c.advance with ⟨_ | arg, c₁⟩
  · rfl
  · simp only [peek_bind_run]
    by_cases hcomma : c₁.peek.kind = .mark .comma
    · rw [if_pos hcomma, if_pos hcomma]
      rfl
    · rw [if_neg hcomma, if_neg hcomma]
      rfl

/-- What the arguments of a call are, without the parenthesis that closes them. -/
theorem arguments_unroll (n : Nat) (c : Cursor) :
    (Prod.fst <$> arguments sub (n + 1)) c =
      unroll (argumentRound sub) (Prod.fst <$> arguments sub n) c := by
  have hmap (x : Read (List Expr × Token)) (c : Cursor) :
      (Prod.fst <$> x) c = ((x c).1.map Prod.fst, (x c).2) := by
    rw [map_eq_pure_bind, bind_run]
    rcases x c with ⟨_ | _, _⟩ <;> rfl
  rw [hmap, arguments, advance_bind_run, bind_run, unroll, argumentRound, bind_run,
    advance_bind_run, bind_run]
  rcases argumentOrPlaceholder sub c.advance with ⟨_ | arg, c₁⟩
  · rfl
  · simp only [current_bind_run]
    by_cases hclosed : c₁.current.kind = .mark .rparen
    · rw [if_pos hclosed, decide_eq_false (not_not_intro hclosed)]
      rfl
    · rw [if_neg hclosed, bind_run, decide_eq_true hclosed]
      change _ = (Prod.fst <$> arguments sub n >>= fun others => pure ([arg] ++ others)) c₁
      rw [bind_run, hmap]
      rcases arguments sub n c₁ with ⟨_ | ⟨args, rparen⟩, c₂⟩ <;> rfl

theorem statements_unroll (n : Nat) (c : Cursor) :
    ((.ok (statements (n + 1) c).1, (statements (n + 1) c).2) : Except SyntaxError _ × Cursor) =
      unroll statementRound (fun c => (.ok (statements n c).1, (statements n c).2)) c := by
  rw [unroll, bind_run, statementRound, statements]
  by_cases hnil : c.rest.isEmpty
  · rw [if_pos hnil, if_pos hnil]
    rfl
  · rw [if_neg hnil, if_neg hnil]
    by_cases hsemi : c.current.kind = .mark .semicolon
    · rw [if_pos hsemi, if_pos hsemi]
      rfl
    · rw [if_neg hsemi, if_neg hsemi]
      rcases statement c with ⟨_ | s, c₁⟩ <;> rfl

/-! ### Every round gets further on -/

/-- Another cursor further on. -/
def Advances (c c' : Cursor) : Prop := c.Precedes c' ∧ c'.rest.length < c.rest.length

theorem advances_advance (hne : c.rest ≠ []) : Advances c c.advance :=
  ⟨c.precedes_advance, by
    have hpos := List.length_pos_iff.mpr hne
    have hle := c.length_following_le
    rw [Cursor.advance_rest]
    omega⟩

theorem Advances.of_precedes {c₁ : Cursor} (hp : c.Precedes c₁) (h : Advances c₁ c') :
    Advances c c' := ⟨hp.trans h.1, h.2.trans_le hp.rest.length_le⟩

theorem Advances.precedes {c₁ : Cursor} (h : Advances c c₁) (hp : c₁.Precedes c') :
    Advances c c' := ⟨h.1.trans hp, hp.rest.length_le.trans_lt h.2⟩

/-- Where tokens are left behind the next one, there is a next one. -/
theorem advances_of_advance (hp : c.advance.Precedes c') (hne : c'.rest ≠ []) : Advances c c' := by
  refine Advances.precedes (advances_advance fun hnil => hne ?_) hp
  rw [← List.suffix_nil, ← hnil]
  exact hp.rest.trans c.following_suffix

theorem rest_ne_nil_of_peek (he : c.eof.kind = .eof) (hk : c.peek.kind.isSolid) : c.rest ≠ [] := by
  intro hnil
  rw [Cursor.peek_of_rest_nil hnil, he] at hk
  cases hk

section Progress

variable (he : c.eof.kind = .eof)
include he

theorem stringRound_advances {items : List StringLiteral}
    (h : Yields stringRound c (items, true) c') : Advances c c' := by
  rw [stringRound, peek_bind_yields_iff] at h
  split at h
  · rename_i hstring
    rw [advance_bind_yields_iff, peek_bind_yields_iff] at h
    have hne : c.rest ≠ [] := rest_ne_nil_of_peek he (by rw [hstring]; rfl)
    split at h
    · rw [advance_bind_yields_iff, pure_yields_iff] at h
      obtain ⟨-, rfl⟩ := h
      exact (advances_advance hne).precedes c.advance.precedes_advance
    · cases (pure_yields_iff.mp h).1
  · cases (pure_yields_iff.mp h).1

variable (hs : ∀ power, Steady (sub power))
include hs

theorem bindingRound_advances {items : List Binding}
    (h : Yields (bindingRound sub) c (items, true) c') : Advances c c' := by
  rw [bindingRound, current_bind_yields_iff] at h
  split at h
  · rename_i hvar
    obtain ⟨b, c₁, hb, h⟩ := bind_yields_iff.mp h
    rw [advance_bind_yields_iff, pure_yields_iff] at h
    obtain ⟨-, rfl⟩ := h
    have hne : c.rest ≠ [] := Cursor.rest_ne_nil_of_isSolid he (by rw [hvar]; rfl)
    have hp := (binding_steady hs).of_yields hb
    rcases eq_or_ne c₁.rest [] with hnil | hne₁
    · refine ⟨hp.trans c₁.precedes_advance, ?_⟩
      have hle := c₁.precedes_advance.rest.length_le
      rw [hnil] at hle
      exact hle.trans_lt (List.length_pos_iff.mpr hne)
    · exact .of_precedes hp (advances_advance hne₁)
  · cases (pure_yields_iff.mp h).1

theorem macroRound_advances {items : List Expr} (h : Yields (macroRound sub) c (items, true) c') :
    Advances c c' ∧ c'.rest ≠ [] := by
  rw [macroRound, advance_bind_yields_iff] at h
  obtain ⟨arg, c₁, ha, h⟩ := bind_yields_iff.mp h
  rw [peek_bind_yields_iff] at h
  split at h
  · rename_i hcomma
    rw [advance_bind_yields_iff, pure_yields_iff] at h
    obtain ⟨-, rfl⟩ := h
    have hp := ((hs .lowest).of_yields ha).trans c₁.precedes_advance
    have hne : c₁.advance.rest ≠ [] :=
      Cursor.rest_ne_nil_of_isSolid (hp.eof ▸ he) (by rw [Cursor.advance_current, hcomma]; rfl)
    exact ⟨advances_of_advance hp hne, hne⟩
  · cases (pure_yields_iff.mp h).1

/-- Recovery goes back to a token of the argument, which stands behind the `(` or `,` in front of
it; so the next round starts further on, also where the cursor goes back. -/
theorem argumentRound_advances {items : List Expr} {again : Bool}
    (h : Yields (argumentRound sub) c (items, again) c') : Advances c c' ∧ c'.rest ≠ [] := by
  rw [argumentRound, advance_bind_yields_iff] at h
  obtain ⟨arg, c₁, ha, h⟩ := bind_yields_iff.mp h
  rw [current_bind_yields_iff, pure_yields_iff] at h
  obtain ⟨-, rfl⟩ := h
  have hp := (argumentOrPlaceholder_steady hs).of_yields ha
  have hne := argumentOrPlaceholder_rest_ne_nil (c := c.advance) he hs ha
  exact ⟨advances_of_advance hp hne, hne⟩

end Progress

theorem statementRound_advances {items : List Statement}
    (h : Yields statementRound c (items, true) c') : Advances c c' := by
  unfold Yields statementRound at h
  have hstep {c₁ : Cursor} (hne : c.rest ≠ []) (hp : c.Precedes c₁) : Advances c c₁.step := by
    have hpos := List.length_pos_iff.mpr hne
    have hle := hp.rest.length_le
    refine ⟨hp.trans ⟨List.tail_suffix _, List.prefix_refl _, rfl⟩, ?_⟩
    rw [Cursor.step, List.length_tail]
    omega
  split at h
  · cases h
  · rename_i hnil
    have hne : c.rest ≠ [] := fun h => hnil (List.isEmpty_iff.mpr h)
    split at h
    · cases h
      exact hstep hne (.refl c)
    · rcases yields_or_fails statement c with ⟨s, c₁, hy⟩ | ⟨e, c₁, hf⟩
      · rw [hy] at h
        cases h
        exact hstep hne (statement_steady.of_yields hy)
      · rw [hf] at h
        cases h
        have hp := (statement_steady.of_fails hf).trans (c₁.precedes_record e)
        obtain ⟨hsuffix, hlt⟩ := synchronize_rest hp hne
        refine ⟨⟨hsuffix, ?_, (synchronize_eof _).trans hp.eof⟩, hlt⟩
        rw [synchronize_errors]
        exact hp.errors

/-! ### The bounds are enough -/

theorem strings_bounded : Bounded stringRound strings (·.eof.kind = .eof) where
  zero {c} he hnil := by
    refine .last ?_
    rw [stringRound, peek_bind_yields_iff, Cursor.peek_of_rest_nil hnil, he, if_neg (by simp)]
    exact pure_yields_iff.mpr ⟨rfl, rfl⟩
  succ := strings_unroll
  progress he h :=
    have ⟨hp, hlt⟩ := stringRound_advances he h
    ⟨hp.eof ▸ he, hlt⟩

theorem statements_bounded :
    Bounded statementRound (fun n c => (.ok (statements n c).1, (statements n c).2))
      fun _ => True where
  zero {c} _ hnil := by
    refine .last ?_
    rw [Yields, statementRound, if_pos (List.isEmpty_iff.mpr hnil)]
    rfl
  succ := statements_unroll
  progress _ h := ⟨trivial, (statementRound_advances h).2⟩

section Sub

variable (hs : ∀ power, Steady (sub power))
include hs

theorem bindings_bounded : Bounded (bindingRound sub) (bindings sub) (·.eof.kind = .eof) where
  zero {c} he hnil := by
    refine .last ?_
    rw [bindingRound, current_bind_yields_iff, Cursor.current_of_rest_nil hnil, he,
      if_neg (by simp)]
    exact pure_yields_iff.mpr ⟨rfl, rfl⟩
  succ := bindings_unroll
  progress he h :=
    have ⟨hp, hlt⟩ := bindingRound_advances he hs h
    ⟨hp.eof ▸ he, hlt⟩

theorem macroArgs_bounded :
    Bounded (macroRound sub) (macroArgs sub) fun c => c.eof.kind = .eof ∧ c.rest ≠ [] where
  zero h hnil := absurd hnil h.2
  succ := macroArgs_unroll
  progress h hy :=
    have ⟨⟨hp, hlt⟩, hne⟩ := macroRound_advances h.1 hs hy
    ⟨⟨hp.eof ▸ h.1, hne⟩, hlt⟩

theorem arguments_bounded :
    Bounded (argumentRound sub) (fun n => Prod.fst <$> arguments sub n)
      fun c => c.eof.kind = .eof ∧ c.rest ≠ [] where
  zero h hnil := absurd hnil h.2
  succ := arguments_unroll
  progress h hy :=
    have ⟨⟨hp, hlt⟩, hne⟩ := argumentRound_advances h.1 hs hy
    ⟨⟨hp.eof ▸ h.1, hne⟩, hlt⟩

end Sub

end Read

end PayFormula
