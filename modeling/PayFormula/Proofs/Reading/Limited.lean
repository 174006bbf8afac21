import PayFormula.Proofs.Reading.Related

/-!
# The limit of nesting

With more levels of nesting every text is read as it is with fewer, unless the run
with fewer levels meets the limit. Such a run fails because of it, or has failed
because of it in an argument and recovered. Recorded errors stay, so that the
limit, once met, has been met by whatever goes on from there.
-/
namespace PayFormula.Read

variable {α β : Type} {c c' : Cursor}

/-- The run fails at the limit of nesting, or has recovered from such a failure. -/
def MeetsLimit (run : Except SyntaxError α × Cursor) : Prop :=
  (∃ e, run.1 = .error e ∧ e.cause = .tooDeep) ∨ ∃ e ∈ run.2.errors, e.cause = .tooDeep

/-- The other reader does the same, unless the limit is met. -/
structure Limited (c : Cursor) (x x' : Read α) : Prop where
  errors : c.errors <+: (x c).2.errors
  agrees : x' c = x c ∨ MeetsLimit (x c)

theorem Limited.of_run {x x' : Read α} {run : Except SyntaxError α × Cursor} (hrun : x c = run)
    (herrors : c.errors <+: run.2.errors) (h : x' c = run ∨ MeetsLimit run) : Limited c x x' := by
  subst hrun
  exact ⟨herrors, h⟩

/-- Reading goes on from a limit that was met only if it was recovered from. -/
theorem MeetsLimit.bind {x : Read α} {f : α → Read β} (h : MeetsLimit (x c))
    (hf : ∀ a c', Yields x c a c' → c'.errors <+: (f a c').2.errors) :
    MeetsLimit ((x >>= f) c) := by
  rcases yields_or_fails x c with ⟨a, c₁, hy⟩ | ⟨e, c₁, hy⟩
  · rw [hy] at h
    rw [bind_run, hy]
    rcases h with ⟨e, he, -⟩ | ⟨e, hmem, hcause⟩
    · cases he
    · exact .inr ⟨e, (hf a c₁ hy).subset hmem, hcause⟩
  · rw [hy] at h
    rw [bind_run, hy]
    rcases h with ⟨e', he', hcause⟩ | hrecorded
    · cases he'
      exact .inl ⟨e, rfl, hcause⟩
    · exact .inr hrecorded

theorem argumentOrPlaceholder_limited {sub sub' : SubReader}
    (h : Limited c (argument sub) (argument sub')) :
    Limited c (argumentOrPlaceholder sub) (argumentOrPlaceholder sub') := by
  obtain ⟨herrors, hagrees⟩ := h
  rcases yields_or_fails (argument sub) c with ⟨arg, c₁, hy⟩ | ⟨e, c₁, hf⟩
  · rw [hy] at herrors hagrees
    exact .of_run (argumentOrPlaceholder_of_yields hy) herrors
      (hagrees.imp_left argumentOrPlaceholder_of_yields)
  · rw [hf] at herrors hagrees
    cases hs : splitAtStop? [.mark .comma, .mark .rparen] 0 c.rest with
    | none =>
      exact .of_run (argumentOrPlaceholder_fails_iff.mpr ⟨hf, hs⟩) herrors
        (hagrees.imp_left fun hf' => argumentOrPlaceholder_fails_iff.mpr ⟨hf', hs⟩)
    | some split =>
      -- the error is recorded
      have hy := recover_yields_iff (c := c₁) (e := e).mpr ⟨_, _, hs, rfl, rfl⟩
      refine .of_run (argumentOrPlaceholder_yields_iff.mpr (.inr ⟨e, c₁, hf, hy⟩))
        (herrors.trans (List.prefix_append _ _)) ?_
      rcases hagrees with hf' | ⟨e', he', hcause⟩ | ⟨e', hmem, hcause⟩
      · exact .inl (argumentOrPlaceholder_yields_iff.mpr (.inr ⟨e, c₁, hf', hy⟩))
      · cases he'
        exact .inr (.inr ⟨e, List.mem_append_right _ List.mem_cons_self, hcause⟩)
      · exact .inr (.inr ⟨e', List.mem_append_left _ hmem, hcause⟩)

theorem limited_congruence : Congruence @Limited where
  pure _ := ⟨List.prefix_refl _, .inl rfl⟩
  throw _ := ⟨List.prefix_refl _, .inl rfl⟩
  current := ⟨List.prefix_refl _, .inl rfl⟩
  peek := ⟨List.prefix_refl _, .inl rfl⟩
  advance := ⟨List.prefix_refl _, .inl rfl⟩
  remaining {α c x x'} hx _ := ⟨(hx c.rest.length).errors, (hx c.rest.length).agrees⟩
  bind {α β c x x' f f'} hx hf := by
    have herrors : ∀ a c', Yields x c a c' → c'.errors <+: (f a c').2.errors :=
      fun a c' hy => (hf a c' hy).errors
    constructor
    · have hfirst := hx.errors
      rw [bind_run]
      rcases yields_or_fails x c with ⟨a, c₁, hy⟩ | ⟨e, c₁, hy⟩ <;> rw [hy] at hfirst ⊢
      · exact hfirst.trans (herrors a c₁ hy)
      · exact hfirst
    · rcases hx.agrees with heq | hlimit
      · rcases yields_or_fails x c with ⟨a, c₁, hy⟩ | ⟨e, c₁, hy⟩
        · rw [bind_run, bind_run, heq, hy]
          exact (hf a c₁ hy).agrees
        · rw [bind_run, bind_run, heq, hy]
          exact .inl rfl
      · exact .inr (hlimit.bind herrors)
  recovered := argumentOrPlaceholder_limited

theorem expression_zero_limited (more : Nat) (power : Precedence) (c : Cursor) :
    Limited c (expression 0 power) (expression more power) := by
  have hrun : expression 0 power c = (.error ⟨.tooDeep, c.current⟩, c) := by
    rw [expression]
    rfl
  exact .of_run hrun (List.prefix_refl _) (.inr (.inl ⟨⟨.tooDeep, c.current⟩, rfl, rfl⟩))

theorem chain_zero_limited (more : Nat) (power : Precedence) (left : Expr) (c : Cursor) :
    Limited c (chain 0 power left) (chain more power left) := by
  by_cases hp : power < .of c.peek.kind
  · have hrun : chain 0 power left c = (.error ⟨.tooDeep, c.peek⟩, c.advance) := by
      rw [chain, peek_bind_run, if_pos hp]
      rfl
    exact .of_run hrun (List.prefix_refl _) (.inr (.inl ⟨⟨.tooDeep, c.peek⟩, rfl, rfl⟩))
  · have hrun (levels : Nat) : chain levels power left c = (.ok left, c) := by
      cases levels <;> rw [chain, peek_bind_run, if_neg hp] <;> rfl
    exact .of_run (hrun 0) (List.prefix_refl _) (.inl (hrun more))

/-- With more levels an expression is read as it is with fewer, unless these are too few. -/
theorem expression_limited (levels more : Nat) (power : Precedence) (c : Cursor) :
    Limited c (expression levels power) (expression (levels + more) power) :=
  (limited_congruence.expression_and_chain more (expression_zero_limited more _ _)
    (chain_zero_limited more _ _ _) levels).1

end PayFormula.Read
