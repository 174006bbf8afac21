import PayFormula.Proofs.Reading.Related

/-!
# Tokens that go on behind a semicolon

A run looks at the tokens ahead, one at a time. So what it makes of tokens whose
last one is a semicolon does not change when more tokens follow, unless it gets
as far as that semicolon: it would go on behind it. Runs that fail or record an
error are left out, because recovery looks for tokens far ahead.
-/
namespace PayFormula

/-- The last token, if there is one, is a semicolon. -/
def EndsInSemicolon (tokens : List Token) : Prop :=
  ∀ t ∈ tokens.getLast?, t.kind = .mark .semicolon

namespace EndsInSemicolon

variable {tokens back : List Token}

theorem suffix (h : EndsInSemicolon tokens) (hsuffix : back <:+ tokens) : EndsInSemicolon back := by
  obtain ⟨front, rfl⟩ := hsuffix
  intro t ht
  refine h t ?_
  rw [List.getLast?_append, Option.mem_def.mp ht]
  rfl

/-- Something is left behind comments. -/
theorem dropWhile_ne_nil (h : EndsInSemicolon tokens) (hne : tokens ≠ []) :
    tokens.dropWhile (·.kind.isComment) ≠ [] := by
  rw [ne_eq, List.dropWhile_eq_nil_iff]
  intro hall
  have hlast := h _ (List.getLast?_eq_some_getLast hne)
  have hcomment := hall _ (List.getLast_mem hne)
  rw [hlast] at hcomment
  cases hcomment

end EndsInSemicolon

namespace Cursor

/-- The same place in tokens that go on. -/
def continued (more : List Token) (eof : Token) (c : Cursor) : Cursor :=
  ⟨c.rest ++ more, eof, c.errors⟩

variable {more : List Token} {eof : Token} {c : Cursor}

theorem current_continued (h : c.rest ≠ []) : (c.continued more eof).current = c.current := by
  obtain ⟨t, rest, hrest⟩ := List.exists_cons_of_ne_nil h
  rw [current, current, continued, hrest]
  rfl

theorem step_continued (h : c.rest ≠ []) :
    (c.continued more eof).step = c.step.continued more eof := by
  obtain ⟨t, rest, hrest⟩ := List.exists_cons_of_ne_nil h
  rw [step, step, continued, continued, hrest]
  rfl

section Ahead

variable (h : EndsInSemicolon c.rest) (hlen : 1 < c.rest.length)
include h hlen

theorem following_ne_nil : c.following ≠ [] := by
  refine (h.suffix (List.tail_suffix _)).dropWhile_ne_nil fun hnil => ?_
  have hlength := congrArg List.length hnil
  rw [List.length_tail, List.length_nil] at hlength
  omega

theorem following_continued : (c.continued more eof).following = c.following ++ more := by
  have hne : c.rest ≠ [] := List.ne_nil_of_length_pos (by omega)
  have htail : (c.continued more eof).rest.tail = c.rest.tail ++ more :=
    List.tail_append_of_ne_nil hne
  rw [following, following, htail, List.dropWhile_append, if_neg]
  rw [List.isEmpty_iff]
  exact following_ne_nil h hlen

theorem peek_continued : (c.continued more eof).peek = c.peek := by
  obtain ⟨t, rest, hrest⟩ := List.exists_cons_of_ne_nil (following_ne_nil h hlen)
  rw [peek, peek, following_continued h hlen, hrest]
  rfl

theorem advance_continued : (c.continued more eof).advance = c.advance.continued more eof := by
  rw [advance, following_continued h hlen]
  rfl

end Ahead

theorem length_of_peek (he : c.eof.kind = .eof) (hk : c.peek.kind.isSolid) :
    1 < c.rest.length := by
  have hle := c.length_following_le
  rw [following_eq_of_isSolid he hk, List.length_cons] at hle
  omega

end Cursor

namespace Read

variable {α β : Type} {more : List Token} {eof : Token} {c c' : Cursor}

/-- The run has got to the last token, has failed, or has recorded an error. -/
def Strays (c : Cursor) (run : Except SyntaxError α × Cursor) : Prop :=
  run.2.rest.length ≤ 1 ∨ (∃ e, run.1 = .error e) ∨ c.errors.length < run.2.errors.length

/-- The other reader does the same, also where more tokens follow unless the run strays. -/
structure Continues (more : List Token) (eof : Token) {α : Type} (c : Cursor) (x x' : Read α) :
    Prop where
  same : x' c = x c
  precedes : c.Precedes (x c).2
  agrees : c.eof.kind = .eof → EndsInSemicolon c.rest →
    x' (c.continued more eof) = ((x c).1, (x c).2.continued more eof) ∨ Strays c (x c)

theorem Continues.of_run {x x' : Read α} {run : Except SyntaxError α × Cursor} (hrun : x c = run)
    (hsame : x' c = run) (hprecedes : c.Precedes run.2)
    (h : c.eof.kind = .eof → EndsInSemicolon c.rest →
      x' (c.continued more eof) = (run.1, run.2.continued more eof) ∨ Strays c run) :
    Continues more eof c x x' := by
  subst hrun
  exact ⟨hsame, hprecedes, h⟩

/-- What strays does so however the run goes on. -/
theorem Strays.later {a : α} {run : Except SyntaxError β × Cursor} (h : Strays c (.ok a, c'))
    (hp : c'.Precedes run.2) : Strays c run := by
  rcases h with hlen | ⟨e, he⟩ | herrors
  · exact .inl (hp.rest.length_le.trans hlen)
  · cases he
  · exact .inr (.inr (herrors.trans_le hp.errors_le))

theorem advance_continues (hends : EndsInSemicolon c.rest) :
    (c.continued more eof).advance = c.advance.continued more eof ∨ c.advance.rest.length ≤ 1 := by
  by_cases hlen : 1 < c.rest.length
  · exact .inl (Cursor.advance_continued hends hlen)
  · exact .inr (c.following_suffix.length_le.trans (Nat.le_of_not_lt hlen))

theorem argumentOrPlaceholder_continues {sub sub' : SubReader}
    (h : Continues more eof c (argument sub) (argument sub')) :
    Continues more eof c (argumentOrPlaceholder sub) (argumentOrPlaceholder sub') := by
  obtain ⟨hsame, hprecedes, hagrees⟩ := h
  rcases yields_or_fails (argument sub) c with ⟨arg, c₁, hy⟩ | ⟨e, c₁, hf⟩
  · rw [hy] at hsame hprecedes hagrees
    refine .of_run (argumentOrPlaceholder_of_yields hy) (argumentOrPlaceholder_of_yields hsame)
      (hprecedes.trans c₁.precedes_advance) fun heof hends => ?_
    rcases hagrees heof hends with heq | hlen | ⟨e, he⟩ | herrors
    · rcases advance_continues (hends.suffix hprecedes.rest) with hadvance | hlen
      · left
        rw [← hadvance]
        exact argumentOrPlaceholder_of_yields heq
      · exact .inr (.inl hlen)
    · exact .inr (.inl (c₁.following_suffix.length_le.trans hlen))
    · cases he
    · exact .inr (.inr (.inr herrors))
  · rw [hf] at hsame hprecedes
    cases hs : splitAtStop? [.mark .comma, .mark .rparen] 0 c.rest with
    | none =>
      exact .of_run (argumentOrPlaceholder_fails_iff.mpr ⟨hf, hs⟩)
        (argumentOrPlaceholder_fails_iff.mpr ⟨hsame, hs⟩) hprecedes
        fun _ _ => .inr (.inr (.inl ⟨e, rfl⟩))
    | some split =>
      -- the error is recorded
      obtain ⟨skipped, stop⟩ := split
      have hy := recover_yields_iff (c := c₁) (e := e).mpr ⟨_, _, hs, rfl, rfl⟩
      have hstop : stop <:+ c.rest := ⟨skipped, (splitAtStop?_eq_append hs).symm⟩
      have herrors : c.errors.length ≤ c₁.errors.length := hprecedes.errors_le
      refine .of_run (argumentOrPlaceholder_yields_iff.mpr (.inr ⟨e, c₁, hf, hy⟩))
        (argumentOrPlaceholder_yields_iff.mpr (.inr ⟨e, c₁, hsame, hy⟩))
        ⟨hstop, hprecedes.errors.trans (List.prefix_append _ _), hprecedes.eof⟩
        fun _ _ => .inr (.inr (.inr ?_))
      simp only [Cursor.record, List.length_append, List.length_singleton]
      omega

theorem continues_congruence : Congruence (@Continues more eof) where
  pure a := .of_run rfl rfl (.refl _) fun _ _ => .inl rfl
  throw _ := .of_run rfl rfl (.refl _) fun _ _ => .inr (.inr (.inl ⟨_, rfl⟩))
  current {c} := by
    refine .of_run rfl rfl (.refl c) fun _ _ => ?_
    by_cases hnil : c.rest = []
    · exact .inr (.inl (hnil ▸ Nat.zero_le 1 : c.rest.length ≤ 1))
    · exact .inl (congrArg (fun t => (Except.ok t, _)) (Cursor.current_continued hnil))
  peek {c} := by
    refine .of_run rfl rfl (.refl c) fun _ hends => ?_
    by_cases hlen : 1 < c.rest.length
    · exact .inl (congrArg (fun t => (Except.ok t, _)) (Cursor.peek_continued hends hlen))
    · exact .inr (.inl (Nat.le_of_not_lt hlen))
  advance {c} := by
    refine .of_run rfl rfl c.precedes_advance fun _ hends => ?_
    exact (advance_continues hends).imp (congrArg (Prod.mk _)) .inl
  remaining {α c x x'} hx henough := by
    refine ⟨(hx c.rest.length).same, (hx c.rest.length).precedes, fun he hends => ?_⟩
    by_cases hnil : c.rest = []
    · have hle := (hx c.rest.length).precedes.rest.length_le
      exact .inr (.inl (hle.trans (by rw [hnil]; exact Nat.zero_le 1)))
    · -- as many rounds as tokens follow in all are enough for the tokens in front, too
      have hle : c.rest.length ≤ (c.continued more eof).rest.length :=
        (List.prefix_append c.rest more).length_le
      have hrun := henough c he rfl le_rfl hle
      rw [(hx _).same, (hx _).same] at hrun
      have hagrees := (hx (c.continued more eof).rest.length).agrees he hends
      rw [hrun] at hagrees
      exact hagrees
  bind {α β c x x' f f'} hx hf := by
    obtain ⟨hsame, hprecedes, hagrees⟩ := hx
    rcases yields_or_fails x c with ⟨a, c₁, hy⟩ | ⟨e, c₁, hy⟩
    · obtain ⟨hsame', hprecedes', hagrees'⟩ := hf a c₁ hy
      rw [hy] at hsame hprecedes hagrees
      refine .of_run (by rw [bind_run, hy]) (by rw [bind_run, hsame]; exact hsame')
        (hprecedes.trans hprecedes') fun he hends => ?_
      rcases hagrees he hends with heq | hstrays
      · rw [bind_run, heq]
        refine (hagrees' (hprecedes.eof ▸ he) (hends.suffix hprecedes.rest)).imp_right ?_
        exact .imp_right (.imp_right hprecedes.errors_le.trans_lt)
      · exact .inr (hstrays.later hprecedes')
    · rw [hy] at hsame hprecedes
      exact .of_run (by rw [bind_run, hy]) (by rw [bind_run, hsame]) hprecedes
        fun _ _ => .inr (.inr (.inl ⟨e, rfl⟩))
  recovered := argumentOrPlaceholder_continues

end Read

end PayFormula
