import PayFormula.Proofs.Reading.Run

/-!
# What every run leaves behind

However a run of a reader ends, the tokens left are a final part of those it
started with, the recorded errors begin with those recorded before, and the end
token is the same. Only the recovery of an argument moves a cursor back, and
never in front of the argument.
-/
namespace PayFormula

/-- A cursor that a run from another one may leave behind. -/
structure Cursor.Precedes (c c' : Cursor) : Prop where
  rest : c'.rest <:+ c.rest
  errors : c.errors <+: c'.errors
  eof : c'.eof = c.eof

namespace Cursor.Precedes

variable {c c₁ c₂ : Cursor}

theorem refl (c : Cursor) : c.Precedes c := ⟨List.suffix_refl _, List.prefix_refl _, rfl⟩

theorem trans (h : c.Precedes c₁) (h' : c₁.Precedes c₂) : c.Precedes c₂ :=
  ⟨h'.rest.trans h.rest, h.errors.trans h'.errors, h'.eof.trans h.eof⟩

theorem errors_le (h : c.Precedes c₁) : c.errors.length ≤ c₁.errors.length := h.errors.length_le

end Cursor.Precedes

theorem Cursor.following_suffix_tail (c : Cursor) : c.following <:+ c.rest.tail :=
  List.dropWhile_suffix _

theorem Cursor.following_suffix (c : Cursor) : c.following <:+ c.rest :=
  c.following_suffix_tail.trans (List.tail_suffix _)

theorem Cursor.precedes_advance (c : Cursor) : c.Precedes c.advance :=
  ⟨c.following_suffix, List.prefix_refl _, rfl⟩

theorem Cursor.precedes_record (c : Cursor) (e : SyntaxError) : c.Precedes (c.record e) :=
  ⟨List.suffix_refl _, List.prefix_append _ _, rfl⟩

theorem splitAtStop?_eq_append {stops : List TokenKind} {depth : Nat}
    {tokens skipped stop : List Token}
    (h : splitAtStop? stops depth tokens = some (skipped, stop)) :
    tokens = skipped ++ stop := by
  induction tokens generalizing depth skipped with
  | nil => simp [splitAtStop?] at h
  | cons t rest ih =>
    rw [splitAtStop?] at h
    split at h
    · cases h
      rfl
    · obtain ⟨⟨inner, after⟩, hi, heq⟩ := Option.map_eq_some_iff.mp h
      cases heq
      rw [ih hi]
      rfl

/-- A split stands in front of a token of one of the kinds. -/
theorem splitAtStop?_stop {stops : List TokenKind} {depth : Nat}
    {tokens skipped stop : List Token}
    (h : splitAtStop? stops depth tokens = some (skipped, stop)) :
    ∃ t rest, stop = t :: rest ∧ t.kind ∈ stops := by
  induction tokens generalizing depth skipped with
  | nil => simp [splitAtStop?] at h
  | cons t rest ih =>
    rw [splitAtStop?] at h
    split at h
    · rename_i ht
      cases h
      exact ⟨t, rest, rfl, ht.2⟩
    · obtain ⟨⟨inner, after⟩, hi, heq⟩ := Option.map_eq_some_iff.mp h
      cases heq
      exact ih hi

namespace Read

variable {α β : Type}

/-- Every run of the reader leaves such a cursor behind, also one that fails. -/
def Steady (x : Read α) : Prop := ∀ c : Cursor, c.Precedes (x c).2

theorem Steady.of_yields {x : Read α} (h : Steady x) {c c' : Cursor} {a : α}
    (hy : Yields x c a c') : c.Precedes c' := by
  have := h c
  rwa [hy] at this

theorem Steady.of_fails {x : Read α} (h : Steady x) {c c' : Cursor} {e : SyntaxError}
    (hf : Fails x c e c') : c.Precedes c' := by
  have := h c
  rwa [hf] at this

theorem Steady.bind {x : Read α} {f : α → Read β} (hx : Steady x) (hf : ∀ a, Steady (f a)) :
    Steady (x >>= f) := by
  intro c
  rcases yields_or_fails x c with ⟨a, c₁, h⟩ | ⟨e, c₁, h⟩
  · rw [bind_run, h]
    exact (hx.of_yields h).trans (hf a c₁)
  · rw [bind_run, h]
    exact hx.of_fails h

theorem Steady.ite {p : Prop} [Decidable p] {x y : Read α} (hx : Steady x) (hy : Steady y) :
    Steady (if p then x else y) := by
  split
  · exact hx
  · exact hy

theorem pure_steady (a : α) : Steady (pure a) := fun c => .refl c
theorem fail_steady (cause : SyntaxError.Cause) (t : Token) : Steady (fail cause t : Read α) :=
  fun c => .refl c
theorem current_steady : Steady current := fun c => .refl c
theorem peek_steady : Steady peek := fun c => .refl c
theorem remaining_steady : Steady remaining := fun c => .refl c
theorem advance_steady : Steady advance := fun c => c.precedes_advance

theorem number_steady (t : Token) : Steady (number t) := by
  unfold number
  split
  · exact pure_steady _
  · exact fail_steady _ _

theorem date_steady (t : Token) : Steady (date t) := by
  unfold date
  split
  · exact pure_steady _
  · exact fail_steady _ _

theorem time_steady (t : Token) : Steady (time t) := by
  unfold time
  split
  · exact pure_steady _
  · exact fail_steady _ _

theorem ident_steady : Steady ident :=
  current_steady.bind fun _ => .ite (fail_steady _ _) (.ite (fail_steady _ _) (pure_steady _))

theorem expect_steady (kind : TokenKind) : Steady (expect kind) :=
  peek_steady.bind fun _ => .ite (advance_steady.bind fun _ => pure_steady _) (fail_steady _ _)

theorem expectClosing_steady (opening closing : Mark) : Steady (expectClosing opening closing) :=
  peek_steady.bind fun _ => .ite (advance_steady.bind fun _ => pure_steady _) (fail_steady _ _)

theorem expectName_steady : Steady expectName := by
  refine peek_steady.bind fun next => ?_
  split
  · exact advance_steady.bind fun _ => ident_steady
  · exact fail_steady _ _
  · exact fail_steady _ _
  · exact .ite (fail_steady _ _) (fail_steady _ _)
  · exact fail_steady _ _

theorem nameClause_steady : Steady nameClause :=
  current_steady.bind fun _ => expectName_steady.bind fun _ => pure_steady _

theorem strings_steady (n : Nat) : Steady (strings n) := by
  induction n with
  | zero => exact pure_steady _
  | succ n ih =>
    refine peek_steady.bind fun _ => .ite ?_ (pure_steady _)
    refine advance_steady.bind fun _ => peek_steady.bind fun _ => .ite ?_ (pure_steady _)
    exact advance_steady.bind fun _ => ih.bind fun _ => pure_steady _

theorem list_steady : Steady list := by
  refine current_steady.bind fun _ => peek_steady.bind fun _ => .ite ?_ (fail_steady _ _)
  exact remaining_steady.bind fun n => (strings_steady n).bind fun _ =>
    (expectClosing_steady _ _).bind fun _ => pure_steady _

theorem argumentOrPlaceholder_precedes {sub : SubReader} {c : Cursor}
    (h : c.Precedes (argument sub c).2) : c.Precedes (argumentOrPlaceholder sub c).2 := by
  rcases yields_or_fails (argumentOrPlaceholder sub) c with ⟨a, c', hy⟩ | ⟨e, c', hf⟩
  · rw [hy]
    rcases argumentOrPlaceholder_yields_iff.mp hy with ⟨c₁, ha, rfl⟩ | ⟨e, c₁, ha, hr⟩
    · rw [ha] at h
      exact h.trans c₁.precedes_advance
    · rw [ha] at h
      obtain ⟨skipped, stop, hsplit, -, rfl⟩ := recover_yields_iff.mp hr
      exact ⟨⟨skipped, (splitAtStop?_eq_append hsplit).symm⟩,
        h.errors.trans (List.prefix_append _ _), h.eof⟩
  · rw [hf]
    rwa [(argumentOrPlaceholder_fails_iff.mp hf).1] at h

section Sub

variable {sub : SubReader} (hs : ∀ power, Steady (sub power))
include hs

theorem binding_steady : Steady (binding sub) := by
  refine current_steady.bind fun _ => expectName_steady.bind fun _ =>
    (expect_steady _).bind fun _ =>
    advance_steady.bind fun _ => (hs _).bind fun _ => peek_steady.bind fun _ =>
      .ite ?_ (fail_steady _ _)
  exact advance_steady.bind fun _ => pure_steady _

theorem bindings_steady (n : Nat) : Steady (bindings sub n) := by
  induction n with
  | zero => exact pure_steady _
  | succ n ih =>
    refine current_steady.bind fun _ => .ite ?_ (pure_steady _)
    exact (binding_steady hs).bind fun _ => advance_steady.bind fun _ => ih.bind fun _ =>
      pure_steady _

theorem block_steady : Steady (block sub) :=
  remaining_steady.bind fun n => (bindings_steady hs n).bind fun _ => (hs _).bind fun _ =>
    pure_steady _

theorem paren_steady : Steady (paren sub) := by
  refine current_steady.bind fun _ => peek_steady.bind fun _ => .ite ?_ ?_
  · exact advance_steady.bind fun _ => pure_steady _
  · exact advance_steady.bind fun _ => (block_steady hs).bind fun _ =>
      (expectClosing_steady _ _).bind fun _ => pure_steady _

theorem macroArgs_steady (n : Nat) : Steady (macroArgs sub n) := by
  induction n with
  | zero => exact pure_steady _
  | succ n ih =>
    refine advance_steady.bind fun _ => (hs _).bind fun _ => peek_steady.bind fun _ =>
      .ite ?_ (pure_steady _)
    exact advance_steady.bind fun _ => ih.bind fun _ => pure_steady _

theorem macroCall_steady : Steady (macroCall sub) := by
  have close (f : Token → Token → Expr) :
      Steady (expectClosing .lparen .rparen >>= fun r =>
        expectClosing .dollar .dollar >>= fun closing => pure (f r closing)) :=
    (expectClosing_steady _ _).bind fun _ => (expectClosing_steady _ _).bind fun _ => pure_steady _
  refine current_steady.bind fun _ => expectName_steady.bind fun _ =>
    (expect_steady _).bind fun _ =>
    peek_steady.bind fun _ => .ite ?_ ?_
  · exact (pure_steady _).bind fun _ => close _
  · exact remaining_steady.bind fun n => (macroArgs_steady hs n).bind fun _ => close _

theorem argument_steady : Steady (argument sub) :=
  (block_steady hs).bind fun _ => peek_steady.bind fun _ => .ite (pure_steady _) (fail_steady _ _)

/-- Recovery goes back to a token of the argument itself. -/
theorem argumentOrPlaceholder_steady : Steady (argumentOrPlaceholder sub) := fun c =>
  argumentOrPlaceholder_precedes (argument_steady hs c)

theorem arguments_steady (n : Nat) : Steady (arguments sub n) := by
  induction n with
  | zero => exact peek_steady.bind fun _ => fail_steady _ _
  | succ n ih =>
    refine advance_steady.bind fun _ => (argumentOrPlaceholder_steady hs).bind fun _ =>
      current_steady.bind fun _ => .ite (pure_steady _) ?_
    exact ih.bind fun _ => pure_steady _

theorem call_steady : Steady (call sub) := by
  refine current_steady.bind fun _ => (expect_steady _).bind fun _ => peek_steady.bind fun _ =>
    .ite ?_ ?_
  · exact advance_steady.bind fun _ => pure_steady _
  · exact remaining_steady.bind fun n => (arguments_steady hs n).bind fun _ => pure_steady _

theorem unary_steady (op : UnaryOp) : Steady (unary op sub) :=
  current_steady.bind fun _ => advance_steady.bind fun _ => (hs _).bind fun _ => pure_steady _

theorem overClause_steady : Steady (overClause sub) := by
  refine current_steady.bind fun _ => advance_steady.bind fun _ => (hs _).bind fun _ =>
    peek_steady.bind fun _ => .ite ?_ (pure_steady _)
  exact advance_steady.bind fun _ => nameClause_steady.bind fun _ => pure_steady _

theorem filter_steady : Steady (filter sub) :=
  current_steady.bind fun _ => advance_steady.bind fun _ => (hs _).bind fun _ => pure_steady _

theorem orderBy_steady : Steady (orderBy sub) := by
  refine current_steady.bind fun _ => (expect_steady _).bind fun _ => advance_steady.bind fun _ =>
    (hs _).bind fun _ => peek_steady.bind fun next => ?_
  split
  · exact advance_steady.bind fun _ => pure_steady _
  · exact advance_steady.bind fun _ => pure_steady _
  · exact pure_steady _

theorem primary_steady : Steady (primary sub) := by
  refine current_steady.bind fun t => ?_
  split
  · exact number_steady t
  · exact number_steady t
  · exact ident_steady.bind fun _ => pure_steady _
  · exact pure_steady _
  · exact pure_steady _
  · exact pure_steady _
  · exact date_steady t
  · exact time_steady t
  · exact unary_steady hs _
  · exact unary_steady hs _
  · exact paren_steady hs
  · exact macroCall_steady hs
  · exact call_steady hs
  · exact overClause_steady hs
  · exact filter_steady hs
  · exact orderBy_steady hs
  · exact nameClause_steady.bind fun _ => pure_steady _
  · exact nameClause_steady.bind fun _ => pure_steady _
  · exact list_steady.bind fun _ => pure_steady _
  · exact fail_steady _ _

omit hs in
theorem member_steady (left : Expr) : Steady (member left) := by
  refine current_steady.bind fun _ => peek_steady.bind fun next => ?_
  split
  · exact advance_steady.bind fun _ => list_steady.bind fun _ => pure_steady _
  · exact advance_steady.bind fun _ => nameClause_steady.bind fun _ => pure_steady _
  · exact fail_steady _ _

theorem operator_steady (left : Expr) : Steady (operator sub left) := by
  refine current_steady.bind fun t => ?_
  split
  · exact member_steady left
  · split
    · exact advance_steady.bind fun _ => (hs _).bind fun _ => pure_steady _
    · exact fail_steady _ _
  · exact fail_steady _ _

end Sub

theorem expression_and_chain_steady (levels : Nat) :
    (∀ power, Steady (expression levels power)) ∧
      ∀ power left, Steady (chain levels power left) := by
  induction levels with
  | zero =>
    refine ⟨fun power => ?_, fun power left => ?_⟩
    · rw [expression]
      exact current_steady.bind fun _ => fail_steady _ _
    · rw [chain]
      refine peek_steady.bind fun _ => .ite ?_ (pure_steady _)
      exact advance_steady.bind fun _ => current_steady.bind fun _ => fail_steady _ _
  | succ levels ih =>
    refine ⟨fun power => ?_, fun power left => ?_⟩
    · rw [expression]
      exact (primary_steady ih.1).bind fun left => ih.2 power left
    · rw [chain]
      refine peek_steady.bind fun _ => .ite ?_ (pure_steady _)
      exact advance_steady.bind fun _ => (operator_steady ih.1 left).bind fun left =>
        ih.2 power left

theorem expression_steady (levels : Nat) (power : Precedence) :
    Steady (expression levels power) := (expression_and_chain_steady levels).1 power

theorem chain_steady (levels : Nat) (power : Precedence) (left : Expr) :
    Steady (chain levels power left) := (expression_and_chain_steady levels).2 power left

theorem statement_steady : Steady statement := by
  refine current_steady.bind fun t => ?_
  split
  · exact (binding_steady (expression_steady _)).bind fun _ => pure_steady _
  · exact pure_steady _
  · exact pure_steady _
  · refine (expression_steady _ _).bind fun _ => peek_steady.bind fun _ => .ite ?_ (pure_steady _)
    exact advance_steady.bind fun _ => pure_steady _

end Read

end PayFormula
