import PayFormula.Proofs.Grammar
import PayFormula.Proofs.Reading.Between

/-!
# What is read is a phrase

Whatever a reader yields is a phrase of the grammar: the tokens between the
places where it started and ended stand for the tree. The grammar has to let all
that be passed over that the reader fails at, unless the run records no error:
then it may be the strict one.
-/
namespace PayFormula.Grammar

open Read

/-- From the current token of `c` on, up to the one on which `c'` stands, the phrase was read. -/
def Reached {α : Type} (R : Phrase α) (c c' : Cursor) (a : α) : Prop :=
  ∃ toks, Between c.rest toks c'.rest.tail ∧ R toks c'.peek a

/-- The same from the token after the current one on. -/
def ReachedAfter {α : Type} (R : Phrase α) (c c' : Cursor) (a : α) : Prop :=
  ∃ toks, Between c.rest.tail toks c'.rest.tail ∧ R toks c'.peek a

/-- Whatever an argument fails at may be passed over, up to the `,` or `)` where reading goes on. -/
def Excuses (sub : SubReader) (gap : Phrase SyntaxError) : Prop :=
  ∀ {c : Cursor} {e : SyntaxError} {c' : Cursor} {skipped after : List Token} {stop : Token},
    c.current.kind.isComment = false → Fails (argument sub) c e c' →
    splitAtStop? [.mark .comma, .mark .rparen] 0 c.rest = some (skipped, stop :: after) →
    gap (skipped.filter (!·.kind.isComment)) stop e

/-- A run that the grammar has to explain: it may have recorded errors only if it is lax. -/
def Quiet (lax : Prop) (c c' : Cursor) : Prop := lax ∨ c'.errors.length ≤ c.errors.length

namespace Quiet

variable {lax : Prop} {c c₁ c₂ : Cursor}

theorem left (h : Quiet lax c c₂) (h' : c₁.Precedes c₂) : Quiet lax c c₁ :=
  h.imp_right h'.errors_le.trans

theorem right (h : Quiet lax c c₂) (h' : c.Precedes c₁) : Quiet lax c₁ c₂ :=
  h.imp_right fun hle => hle.trans h'.errors_le

/-- Advancing records no error. -/
theorem of_advance (h : Quiet lax c c₁.advance) : Quiet lax c c₁ := h

end Quiet

/-- A reader of expressions that yields only phrases, and fails in front of a `,` or `)` with an
error at that very token. -/
structure SubSound (lax : Prop) (sub : SubReader) (R : SubPhrase) : Prop where
  steady : ∀ power, Steady (sub power)
  sound : ∀ {power c e c'}, c.eof.kind = .eof → Quiet lax c c' → Yields (sub power) c e c' →
    Reached (R power) c c' e
  refuses : ∀ power {c}, c.current.kind = .mark .comma ∨ c.current.kind = .mark .rparen →
    ∃ e c', Fails (sub power) c e c' ∧ e.token = c.current

theorem clause_reached {word : Keyword} {c c' : Cursor} {a : NameClause} (he : c.eof.kind = .eof)
    (hk : c.current.kind = .keyword word) (h : Yields nameClause c a c') :
    Reached (Clause word) c c' a := by
  obtain ⟨hn, rfl, rfl⟩ := nameClause_yields_iff.mp h
  refine ⟨[c.current, c.peek], ?_, .intro hk hn⟩
  exact (c.between_current he (by rw [hk]; rfl)).trans (c.between_peek he (by rw [hn.kind]; rfl))

theorem strings_between {n : Nat} {c c' : Cursor} {a : List StringLiteral}
    (he : c.eof.kind = .eof) (h : Yields (strings n) c a c') :
    c'.eof = c.eof ∧ ∃ toks, Between c.rest.tail toks c'.rest.tail ∧ Strings toks a := by
  induction n generalizing c a with
  | zero =>
    obtain ⟨rfl, rfl⟩ := pure_yields_iff.mp h
    exact ⟨rfl, [], .refl _, .nil⟩
  | succ n ih =>
    rw [strings, peek_bind_yields_iff] at h
    split at h
    · rename_i hs
      have hbs := c.between_peek he (by rw [hs]; rfl)
      rw [advance_bind_yields_iff, peek_bind_yields_iff] at h
      split at h
      · rename_i hc
        rw [advance_bind_yields_iff, bind_yields_iff] at h
        obtain ⟨strings, c₁, hn, h⟩ := h
        obtain ⟨rfl, rfl⟩ := pure_yields_iff.mp h
        obtain ⟨heof, toks, hb, hS⟩ := ih (c := c.advance.advance) he hn
        have hbc := c.advance.between_peek he (by rw [hc]; rfl)
        exact ⟨heof, _, hbs.trans (hbc.trans hb), .cons hs hc hS⟩
      · obtain ⟨rfl, rfl⟩ := pure_yields_iff.mp h
        exact ⟨rfl, _, hbs, .last hs⟩
    · obtain ⟨rfl, rfl⟩ := pure_yields_iff.mp h
      exact ⟨rfl, [], .refl _, .nil⟩

theorem list_reached {c c' : Cursor} {a : ListLiteral} (he : c.eof.kind = .eof)
    (hk : c.current.kind = .mark .lbracket) (h : Yields Read.list c a c') :
    Reached Listing c c' a := by
  rw [Read.list, current_bind_yields_iff, peek_bind_yields_iff] at h
  split at h
  · rw [remaining_bind_yields_iff, bind_yields_iff] at h
    obtain ⟨strings, c₁, hs, h⟩ := h
    obtain ⟨r, c₂, hr, h⟩ := bind_yields_iff.mp h
    obtain ⟨hrk, rfl, rfl⟩ := expectClosing_yields_iff.mp hr
    obtain ⟨rfl, rfl⟩ := pure_yields_iff.mp h
    obtain ⟨heof, toks, hb, hS⟩ := strings_between he hs
    refine ⟨c.current :: toks ++ [c₁.peek], ?_, .intro hk hS hrk⟩
    exact ((c.between_current he (by rw [hk]; rfl)).trans hb).trans
      (c₁.between_peek (heof ▸ he) (by rw [hrk]; rfl))
  · exact absurd h not_fail_yields

section Sub

variable {lax : Prop} {gap : Phrase SyntaxError} {sub : SubReader} {R : SubPhrase}
  (hs : SubSound lax sub R) {c c' : Cursor} {e : Expr}
include hs

/-- An expression that is read after advancing. -/
theorem SubSound.after {power : Precedence} (he : c.eof.kind = .eof) (hq : Quiet lax c c')
    (h : Yields (sub power) c.advance e c') : ReachedAfter (R power) c c' e := by
  obtain ⟨toks, hb, hR⟩ := hs.sound (c := c.advance) he hq h
  exact ⟨toks, c.between_following.trans hb, hR⟩

theorem binding_between {b : Binding} (he : c.eof.kind = .eof) (hq : Quiet lax c c')
    (hk : c.current.kind = .keyword .varWord) (h : Yields (binding sub) c b c') :
    ∃ toks, Between c.rest toks c'.rest.tail ∧ Bound R toks b := by
  rw [binding, current_bind_yields_iff] at h
  obtain ⟨name, c₁, hn, h⟩ := bind_yields_iff.mp h
  obtain ⟨hname, rfl, rfl⟩ := expectName_yields_iff.mp hn
  obtain ⟨eq, c₂, heq, h⟩ := bind_yields_iff.mp h
  obtain ⟨heqk, rfl, rfl⟩ := expect_yields_iff.mp heq
  rw [advance_bind_yields_iff] at h
  obtain ⟨value, c₃, hv, h⟩ := bind_yields_iff.mp h
  rw [peek_bind_yields_iff] at h
  split at h
  · rename_i hsemi
    rw [advance_bind_yields_iff] at h
    obtain ⟨rfl, rfl⟩ := pure_yields_iff.mp h
    obtain ⟨toks, hb, hR⟩ := hs.after (c := c.advance.advance) he hq.of_advance hv
    have heof : c₃.eof = c.eof := ((hs.steady _).of_yields hv).eof
    refine ⟨c.current :: c.peek :: c.advance.peek :: toks ++ [c₃.peek], ?_,
      .intro hk hname heqk hR hsemi⟩
    have h₁ := c.between_current he (by rw [hk]; rfl)
    have h₂ := c.between_peek he (by rw [hname.kind]; rfl)
    have h₃ := c.advance.between_peek he (by rw [heqk]; rfl)
    have h₄ := c₃.between_peek (heof ▸ he) (by rw [hsemi]; rfl)
    exact (((h₁.trans h₂).trans h₃).trans hb).trans h₄
  · exact absurd h not_fail_yields

theorem bindings_between {n : Nat} {bs : List Binding} (he : c.eof.kind = .eof)
    (hq : Quiet lax c c') (h : Yields (bindings sub n) c bs c') :
    ∃ toks, Between c.rest toks c'.rest ∧ Bounds R toks bs := by
  induction n generalizing c bs with
  | zero =>
    obtain ⟨rfl, rfl⟩ := pure_yields_iff.mp h
    exact ⟨[], .refl _, .nil⟩
  | succ n ih =>
    rw [bindings, current_bind_yields_iff] at h
    split at h
    · rename_i hk
      obtain ⟨b, c₁, hb, h⟩ := bind_yields_iff.mp h
      rw [advance_bind_yields_iff] at h
      obtain ⟨bs, c₂, hbs, h⟩ := bind_yields_iff.mp h
      obtain ⟨rfl, rfl⟩ := pure_yields_iff.mp h
      have hp := ((binding_steady hs.steady).of_yields hb).trans c₁.precedes_advance
      have hp' := (bindings_steady hs.steady n).of_yields hbs
      obtain ⟨front, hf, hB⟩ :=
        binding_between hs he (hq.left (c₁.precedes_advance.trans hp')) hk hb
      obtain ⟨back, hr, hBs⟩ := ih (c := c₁.advance) (hp.eof ▸ he) (hq.right hp) hbs
      exact ⟨front ++ back, hf.trans (c₁.between_following.trans hr), .cons hB hBs⟩
    · obtain ⟨rfl, rfl⟩ := pure_yields_iff.mp h
      exact ⟨[], .refl _, .nil⟩

theorem block_reached {b : Block} (he : c.eof.kind = .eof) (hq : Quiet lax c c')
    (h : Yields (block sub) c b c') : Reached (Blocks R) c c' b := by
  rw [block, remaining_bind_yields_iff] at h
  obtain ⟨bs, c₁, hbs, h⟩ := bind_yields_iff.mp h
  obtain ⟨value, c₂, hv, h⟩ := bind_yields_iff.mp h
  obtain ⟨rfl, rfl⟩ := pure_yields_iff.mp h
  have hp := (bindings_steady hs.steady _).of_yields hbs
  have hp' := (hs.steady _).of_yields hv
  obtain ⟨front, hf, hB⟩ := bindings_between hs he (hq.left hp') hbs
  obtain ⟨back, hb, hR⟩ := hs.sound (hp.eof ▸ he) (hq.right hp) hv
  exact ⟨front ++ back, hf.trans hb, .intro hB hR⟩

theorem paren_reached (he : c.eof.kind = .eof) (hq : Quiet lax c c')
    (hk : c.current.kind = .mark .lparen) (h : Yields (paren sub) c e c') :
    Reached (Primary gap R) c c' e := by
  have hl := c.between_current he (by rw [hk]; rfl)
  rw [paren, current_bind_yields_iff, peek_bind_yields_iff] at h
  split at h
  · rename_i hr
    rw [advance_bind_yields_iff] at h
    obtain ⟨rfl, rfl⟩ := pure_yields_iff.mp h
    exact ⟨_, hl.trans (c.between_peek he (by rw [hr]; rfl)), .unit hk hr⟩
  · rw [advance_bind_yields_iff] at h
    obtain ⟨b, c₁, hb, h⟩ := bind_yields_iff.mp h
    obtain ⟨r, c₂, hr, h⟩ := bind_yields_iff.mp h
    obtain ⟨hrk, rfl, rfl⟩ := expectClosing_yields_iff.mp hr
    obtain ⟨rfl, rfl⟩ := pure_yields_iff.mp h
    have hp := (block_steady hs.steady).of_yields hb
    obtain ⟨toks, ht, hB⟩ := block_reached hs (c := c.advance) he hq.of_advance hb
    refine ⟨c.current :: toks ++ [c₁.peek], ?_, .paren hk hB hrk⟩
    exact (hl.trans (c.between_following.trans ht)).trans
      (c₁.between_peek (hp.eof ▸ he) (by rw [hrk]; rfl))

theorem macroArgs_reachedAfter {n : Nat} {args : List Expr} (he : c.eof.kind = .eof)
    (hq : Quiet lax c c') (hc : c.rest ≠ []) (hn : c.rest.length ≤ n)
    (h : Yields (macroArgs sub n) c args c') : ReachedAfter (Items (R .lowest)) c c' args := by
  induction n generalizing c args with
  | zero => exact absurd (List.length_eq_zero_iff.mp (Nat.le_zero.mp hn)) hc
  | succ n ih =>
    rw [macroArgs, advance_bind_yields_iff] at h
    obtain ⟨arg, c₁, ha, h⟩ := bind_yields_iff.mp h
    have hp := (hs.steady _).of_yields ha
    rw [peek_bind_yields_iff] at h
    split at h
    · rename_i hk
      rw [advance_bind_yields_iff] at h
      obtain ⟨args, c₂, has, h⟩ := bind_yields_iff.mp h
      obtain ⟨rfl, rfl⟩ := pure_yields_iff.mp h
      have hp' := (macroArgs_steady hs.steady n).of_yields has
      have he₁ : c₁.eof.kind = .eof := hp.eof ▸ he
      have hsolid : c₁.peek.kind.isSolid := by rw [hk]; rfl
      obtain ⟨toks, hb, hR⟩ := hs.after he (hq.left (c₁.precedes_advance.trans hp')) ha
      have hne : c₁.advance.rest ≠ [] := by
        rw [Cursor.advance_rest, c₁.following_eq_of_isSolid he₁ hsolid]
        simp
      -- The loop reads on behind the token it stood on, so its bound stays large enough.
      have hlen : c₁.advance.rest.length ≤ n := by
        have h₁ := c₁.following_suffix.length_le
        have h₂ := hp.rest.length_le
        have h₃ := c.following_suffix_tail.length_le
        have h₄ : 0 < c.rest.length := List.length_pos_iff.mpr hc
        simp only [Cursor.advance_rest, List.length_tail] at h₁ h₂ h₃ ⊢
        omega
      obtain ⟨toks', hb', hI⟩ := ih (c := c₁.advance) he₁
        (hq.right (c.precedes_advance.trans (hp.trans c₁.precedes_advance))) hne hlen has
      refine ⟨toks ++ c₁.peek :: toks', ?_, .cons hR hk hI⟩
      exact hb.trans ((c₁.between_peek he₁ hsolid).trans hb')
    · obtain ⟨rfl, rfl⟩ := pure_yields_iff.mp h
      obtain ⟨toks, hb, hR⟩ := hs.after he hq ha
      exact ⟨toks, hb, .last hR⟩

theorem macroCall_reached (he : c.eof.kind = .eof) (hq : Quiet lax c c')
    (hk : c.current.kind = .mark .dollar) (h : Yields (macroCall sub) c e c') :
    Reached (Primary gap R) c c' e := by
  rw [macroCall, current_bind_yields_iff] at h
  obtain ⟨name, c₁, hn, h⟩ := bind_yields_iff.mp h
  obtain ⟨hname, rfl, rfl⟩ := expectName_yields_iff.mp hn
  obtain ⟨l, c₂, hl, h⟩ := bind_yields_iff.mp h
  obtain ⟨hlk, rfl, rfl⟩ := expect_yields_iff.mp hl
  have h₁ := c.between_current he (by rw [hk]; rfl)
  have h₂ := c.between_peek he (by rw [hname.kind]; rfl)
  have h₃ := c.advance.between_peek he (by rw [hlk]; rfl)
  have hstart := (h₁.trans h₂).trans h₃
  rw [peek_bind_yields_iff] at h
  split at h
  · rename_i hrk
    rw [pure_bind] at h
    obtain ⟨r, c₃, hr, h⟩ := bind_yields_iff.mp h
    obtain ⟨-, rfl, rfl⟩ := expectClosing_yields_iff.mp hr
    obtain ⟨closing, c₄, hd, h⟩ := bind_yields_iff.mp h
    obtain ⟨hdk, rfl, rfl⟩ := expectClosing_yields_iff.mp hd
    obtain ⟨rfl, rfl⟩ := pure_yields_iff.mp h
    have h₄ := c.advance.advance.between_peek he (by rw [hrk]; rfl)
    have h₅ := c.advance.advance.advance.between_peek he (by rw [hdk]; rfl)
    exact ⟨_, (hstart.trans h₄).trans h₅, .macroUnit hk hname hlk hrk hdk⟩
  · rw [remaining_bind_yields_iff] at h
    obtain ⟨args, c₃, ha, h⟩ := bind_yields_iff.mp h
    obtain ⟨r, c₄, hr, h⟩ := bind_yields_iff.mp h
    obtain ⟨hrk, rfl, rfl⟩ := expectClosing_yields_iff.mp hr
    obtain ⟨closing, c₅, hd, h⟩ := bind_yields_iff.mp h
    obtain ⟨hdk, rfl, rfl⟩ := expectClosing_yields_iff.mp hd
    obtain ⟨rfl, rfl⟩ := pure_yields_iff.mp h
    have hp := (macroArgs_steady hs.steady _).of_yields ha
    have he₃ : c₃.eof.kind = .eof := hp.eof ▸ he
    have hne : c.advance.advance.rest ≠ [] := by
      rw [Cursor.advance_rest, c.advance.following_eq_of_isSolid he (by rw [hlk]; rfl)]
      simp
    obtain ⟨toks, hb, hI⟩ := macroArgs_reachedAfter hs (c := c.advance.advance) he
      hq.of_advance.of_advance hne le_rfl ha
    have h₄ := c₃.between_peek he₃ (by rw [hrk]; rfl)
    have h₅ := c₃.advance.between_peek he₃ (by rw [hdk]; rfl)
    refine ⟨c.current :: c.peek :: c.advance.peek :: toks ++ [c₃.peek, c₃.advance.peek], ?_,
      .macroCall hk hname hlk hI hrk hdk⟩
    exact (hstart.trans hb).trans (h₄.trans h₅)

theorem argument_reached (he : c.eof.kind = .eof) (hq : Quiet lax c c')
    (h : Yields (argument sub) c e c') : Reached (Argument gap R) c c' e ∧
      (c'.peek.kind = .mark .comma ∨ c'.peek.kind = .mark .rparen) := by
  obtain ⟨b, c₁, hb, h⟩ := bind_yields_iff.mp h
  rw [peek_bind_yields_iff] at h
  split at h
  · rename_i hstop
    obtain ⟨rfl, rfl⟩ := pure_yields_iff.mp h
    refine ⟨?_, hstop⟩
    obtain ⟨toks, ht, hB⟩ := block_reached hs he hq hb
    cases hbs : b.bindings with
    | nil =>
      obtain @⟨front, back, next, bs, value, hbounds, hv⟩ := hB
      cases hbs
      cases hbounds
      exact ⟨back, ht, .value hv⟩
    | cons first others => exact ⟨toks, ht, .block hB (by simp [hbs])⟩
  · exact absurd h not_fail_yields

/-- No argument starts with the `,` or `)` that ends it. -/
theorem argument_refuses (hk : c.current.kind = .mark .comma ∨ c.current.kind = .mark .rparen) :
    ∃ e c', Fails (argument sub) c e c' ∧ e.token = c.current := by
  obtain ⟨e, c', hf, ht⟩ := hs.refuses .lowest hk
  have hvar : c.current.kind ≠ .keyword .varWord := by
    intro h
    rw [h] at hk
    simp at hk
  have hbs : Yields (bindings sub c.rest.length) c [] c := by
    cases c.rest.length with
    | zero => exact pure_yields_iff.mpr ⟨rfl, rfl⟩
    | succ n =>
      rw [bindings, current_bind_yields_iff, if_neg hvar]
      exact pure_yields_iff.mpr ⟨rfl, rfl⟩
  refine ⟨e, c', bind_fails_iff.mpr (.inl ?_), ht⟩
  rw [block, remaining_bind_fails_iff, bind_fails_iff]
  exact .inr ⟨[], c, hbs, bind_fails_iff.mpr (.inl hf)⟩

variable (hgap : lax → Excuses sub gap)

include hgap in
/-- An argument or its placeholder, up to the `,` or `)` on which the cursor stands then. -/
theorem argumentOrPlaceholder_between (he : c.eof.kind = .eof) (hq : Quiet lax c c')
    (hc : c.current.kind.isComment = false) (h : Yields (argumentOrPlaceholder sub) c e c') :
    (c'.current.kind = .mark .comma ∨ c'.current.kind = .mark .rparen) ∧
      ∃ toks, Between c.rest toks c'.rest ∧ Argument gap R toks c'.current e := by
  rcases argumentOrPlaceholder_yields_iff.mp h with ⟨c₁, ha, rfl⟩ | ⟨err, c₁, hf, hr⟩
  · obtain ⟨⟨toks, hb, hA⟩, hstop⟩ := argument_reached hs he hq.of_advance ha
    refine ⟨hstop, toks, ?_, hA⟩
    simpa using hb.trans c₁.between_following
  · obtain ⟨skipped, stop, hsplit, rfl, rfl⟩ := recover_yields_iff.mp hr
    obtain ⟨t, rest, rfl, ht⟩ := splitAtStop?_stop hsplit
    have hrest := splitAtStop?_eq_append hsplit
    have hstop : t.kind = .mark .comma ∨ t.kind = .mark .rparen := by simpa using ht
    refine ⟨hstop, _, ⟨skipped, hrest, rfl⟩, .failed ?_ ?_⟩
    · refine hgap (hq.resolve_right fun hle => ?_) hc hf hsplit
      have := ((argument_steady hs.steady).of_fails hf).errors_le
      simp only [Cursor.record, List.length_append, List.length_singleton] at hle
      omega
    · intro hnil
      cases skipped with
      | nil =>
        -- The argument is empty, so it failed at the very token that ends it.
        have hcur : c.current = t := by simp [Cursor.current, hrest]
        obtain ⟨err', c₂, hf', htok⟩ := argument_refuses hs (c := c) (hcur ▸ hstop)
        rw [← hf'.unique hf] at htok
        exact htok.trans hcur
      | cons s skipped =>
        have hcur : c.current = s := by simp [Cursor.current, hrest]
        rw [hcur] at hc
        simp [hc] at hnil

include hgap in
theorem arguments_between {n : Nat} {args : List Expr} {r : Token} (he : c.eof.kind = .eof)
    (hq : Quiet lax c c') (h : Yields (arguments sub n) c (args, r) c') :
    r.kind = .mark .rparen ∧ ∃ toks, Between c.rest.tail (toks ++ [r]) c'.rest.tail ∧
      Items (Argument gap R) toks r args := by
  induction n generalizing c args with
  | zero => exact absurd (peek_bind_yields_iff.mp h) not_fail_yields
  | succ n ih =>
    rw [arguments, advance_bind_yields_iff] at h
    obtain ⟨arg, c₁, ha, h⟩ := bind_yields_iff.mp h
    have hp := c.precedes_advance.trans
      ((argumentOrPlaceholder_steady hs.steady).of_yields ha)
    have he₁ : c₁.eof.kind = .eof := hp.eof ▸ he
    rw [current_bind_yields_iff] at h
    split at h
    · rename_i hrk
      obtain ⟨heq, rfl⟩ := pure_yields_iff.mp h
      cases heq
      obtain ⟨-, toks, hb, hA⟩ := argumentOrPlaceholder_between hs hgap (c := c.advance) he hq
        (c.peek_not_isComment he) ha
      refine ⟨hrk, toks, ?_, .last hA⟩
      exact (c.between_following.trans hb).trans (c'.between_current he₁ (by rw [hrk]; rfl))
    · rename_i hrk
      obtain ⟨⟨args, r⟩, c₂, has, h⟩ := bind_yields_iff.mp h
      obtain ⟨heq, rfl⟩ := pure_yields_iff.mp h
      cases heq
      have hp' := (arguments_steady hs.steady n).of_yields has
      obtain ⟨hstop, toks, hb, hA⟩ := argumentOrPlaceholder_between hs hgap (c := c.advance) he
        (hq.left hp') (c.peek_not_isComment he) ha
      have hck := hstop.resolve_right hrk
      obtain ⟨hr, toks', hb', hI⟩ := ih (c := c₁) he₁ (hq.right hp) has
      refine ⟨hr, toks ++ c₁.current :: toks', ?_, .cons hA hck hI⟩
      have hcomma := c₁.between_current he₁ (by rw [hck]; rfl)
      simpa using (c.between_following.trans hb).trans (hcomma.trans hb')

include hgap in
theorem call_reached (he : c.eof.kind = .eof) (hq : Quiet lax c c')
    (hk : c.current.kind = .builtin) (h : Yields (call sub) c e c') :
    Reached (Primary gap R) c c' e := by
  rw [call, current_bind_yields_iff] at h
  obtain ⟨l, c₁, hl, h⟩ := bind_yields_iff.mp h
  obtain ⟨hlk, rfl, rfl⟩ := expect_yields_iff.mp hl
  have h₁ := c.between_current he (by rw [hk]; rfl)
  have h₂ := c.between_peek he (by rw [hlk]; rfl)
  rw [peek_bind_yields_iff] at h
  split at h
  · rename_i hrk
    rw [advance_bind_yields_iff] at h
    obtain ⟨rfl, rfl⟩ := pure_yields_iff.mp h
    have h₃ := c.advance.between_peek he (by rw [hrk]; rfl)
    exact ⟨_, (h₁.trans h₂).trans h₃, .callUnit hk hlk hrk⟩
  · rename_i hclosed
    rw [remaining_bind_yields_iff] at h
    obtain ⟨⟨args, r⟩, c₂, ha, h⟩ := bind_yields_iff.mp h
    obtain ⟨rfl, rfl⟩ := pure_yields_iff.mp h
    have hp := (arguments_steady hs.steady _).of_yields ha
    obtain ⟨hrk, toks, hb, hI⟩ := arguments_between hs hgap (c := c.advance) he hq ha
    have hhead : toks.headD r = c.advance.peek := by
      rw [← Cursor.headD_eq_peek hb hp.eof]
      cases toks <;> rfl
    refine ⟨c.current :: c.peek :: toks ++ [r], ?_, .call hk hlk (hhead ▸ hclosed) hI hrk⟩
    simpa using (h₁.trans h₂).trans hb

theorem unary_reached (op : UnaryOp) (he : c.eof.kind = .eof) (hq : Quiet lax c c')
    (hk : c.current.kind = .mark op.mark) (h : Yields (unary op sub) c e c') :
    Reached (Primary gap R) c c' e := by
  rw [unary, current_bind_yields_iff, advance_bind_yields_iff] at h
  obtain ⟨operand, c₁, ho, h⟩ := bind_yields_iff.mp h
  obtain ⟨rfl, rfl⟩ := pure_yields_iff.mp h
  obtain ⟨toks, hb, hR⟩ := hs.after he hq ho
  exact ⟨_, (c.between_current he (by rw [hk]; cases op <;> rfl)).trans hb, .unary hk hR⟩

theorem overClause_reached (he : c.eof.kind = .eof) (hq : Quiet lax c c')
    (hk : c.current.kind = .keyword .overWord) (h : Yields (overClause sub) c e c') :
    Reached (Primary gap R) c c' e := by
  have h₁ := c.between_current he (by rw [hk]; rfl)
  rw [overClause, current_bind_yields_iff, advance_bind_yields_iff] at h
  obtain ⟨context, c₁, hc, h⟩ := bind_yields_iff.mp h
  have he₁ : c₁.eof.kind = .eof := ((hs.steady _).of_yields hc).eof ▸ he
  rw [peek_bind_yields_iff] at h
  split at h
  · rename_i hak
    rw [advance_bind_yields_iff] at h
    obtain ⟨clause, c₂, hn, h⟩ := bind_yields_iff.mp h
    obtain ⟨hname, rfl, rfl⟩ := nameClause_yields_iff.mp hn
    obtain ⟨rfl, rfl⟩ := pure_yields_iff.mp h
    obtain ⟨toks, hb, hR⟩ := hs.after he hq.of_advance.of_advance hc
    have h₂ := c₁.between_peek he₁ (by rw [hak]; rfl)
    have h₃ := c₁.advance.between_peek he₁ (by rw [hname.kind]; rfl)
    refine ⟨c.current :: toks ++ [c₁.peek, c₁.advance.peek], ?_, .overAlias hk hR hak hname⟩
    exact (h₁.trans hb).trans (h₂.trans h₃)
  · rename_i hak
    obtain ⟨rfl, rfl⟩ := pure_yields_iff.mp h
    obtain ⟨toks, hb, hR⟩ := hs.after he hq hc
    exact ⟨_, h₁.trans hb, .overClause hk hR hak⟩

theorem filter_reached (he : c.eof.kind = .eof) (hq : Quiet lax c c')
    (hk : c.current.kind = .keyword .whereWord) (h : Yields (Read.filter sub) c e c') :
    Reached (Primary gap R) c c' e := by
  rw [Read.filter, current_bind_yields_iff, advance_bind_yields_iff] at h
  obtain ⟨condition, c₁, hc, h⟩ := bind_yields_iff.mp h
  obtain ⟨rfl, rfl⟩ := pure_yields_iff.mp h
  obtain ⟨toks, hb, hR⟩ := hs.after he hq hc
  exact ⟨_, (c.between_current he (by rw [hk]; rfl)).trans hb, .filter hk hR⟩

theorem orderBy_reached (he : c.eof.kind = .eof) (hq : Quiet lax c c')
    (hk : c.current.kind = .keyword .orderWord) (h : Yields (orderBy sub) c e c') :
    Reached (Primary gap R) c c' e := by
  rw [orderBy, current_bind_yields_iff] at h
  obtain ⟨b, c₁, hb, h⟩ := bind_yields_iff.mp h
  obtain ⟨hbk, rfl, rfl⟩ := expect_yields_iff.mp hb
  rw [advance_bind_yields_iff] at h
  obtain ⟨key, c₂, hkey, h⟩ := bind_yields_iff.mp h
  have he₂ : c₂.eof.kind = .eof := ((hs.steady _).of_yields hkey).eof ▸ he
  have h₁ := c.between_current he (by rw [hk]; rfl)
  have h₂ := c.between_peek he (by rw [hbk]; rfl)
  rw [peek_bind_yields_iff] at h
  split at h
  · rename_i hd
    rw [advance_bind_yields_iff] at h
    obtain ⟨rfl, rfl⟩ := pure_yields_iff.mp h
    obtain ⟨toks, ht, hR⟩ := hs.after (c := c.advance) he hq.of_advance hkey
    have h₃ := c₂.between_peek he₂ (by rw [hd]; rfl)
    refine ⟨c.current :: c.peek :: toks ++ [c₂.peek], ?_, .orderByDirection hk hbk hR hd⟩
    exact ((h₁.trans h₂).trans ht).trans h₃
  · rename_i hd
    rw [advance_bind_yields_iff] at h
    obtain ⟨rfl, rfl⟩ := pure_yields_iff.mp h
    obtain ⟨toks, ht, hR⟩ := hs.after (c := c.advance) he hq.of_advance hkey
    have h₃ := c₂.between_peek he₂ (by rw [hd]; rfl)
    refine ⟨c.current :: c.peek :: toks ++ [c₂.peek], ?_, .orderByDirection hk hbk hR hd⟩
    exact ((h₁.trans h₂).trans ht).trans h₃
  · rename_i hasc hdesc
    obtain ⟨rfl, rfl⟩ := pure_yields_iff.mp h
    obtain ⟨toks, ht, hR⟩ := hs.after (c := c.advance) he hq hkey
    exact ⟨_, (h₁.trans h₂).trans ht, .orderBy hk hbk hR hasc hdesc⟩

include hgap in
theorem primary_reached (he : c.eof.kind = .eof) (hq : Quiet lax c c')
    (h : Yields (primary sub) c e c') : Reached (Primary gap R) c c' e := by
  -- A single token that is read without looking further.
  have single {e : Expr} (hk : c.current.kind.isSolid)
      (hR : ∀ next, Primary gap R [c.current] next e) : Reached (Primary gap R) c c e :=
    ⟨_, c.between_current he hk, hR _⟩
  rw [primary, current_bind_yields_iff] at h
  cases hk : c.current.kind with
  | int | float =>
    rw [hk] at h
    simp only [number] at h
    split at h
    · rename_i d hd
      obtain ⟨rfl, rfl⟩ := pure_yields_iff.mp h
      exact single (by rw [hk]; rfl) fun _ => .number (by simp [hk]) hd
    · exact absurd h not_fail_yields
  | ident =>
    rw [hk] at h
    obtain ⟨i, c₁, hi, h⟩ := bind_yields_iff.mp h
    obtain ⟨h₁, h₂, h₃, rfl, rfl⟩ := ident_yields_iff.mp hi
    obtain ⟨rfl, rfl⟩ := pure_yields_iff.mp h
    exact single (by rw [hk]; rfl) fun _ => .ident ⟨hk, h₁, h₂, h₃⟩
  | string =>
    rw [hk] at h
    obtain ⟨rfl, rfl⟩ := pure_yields_iff.mp h
    exact single (by rw [hk]; rfl) fun _ => .string hk
  | date =>
    rw [hk] at h
    simp only [Read.date] at h
    split at h
    · rename_i d hd
      obtain ⟨rfl, rfl⟩ := pure_yields_iff.mp h
      exact single (by rw [hk]; rfl) fun _ => .date hk hd
    · exact absurd h not_fail_yields
  | time =>
    rw [hk] at h
    simp only [Read.time] at h
    split at h
    · rename_i d hd
      obtain ⟨rfl, rfl⟩ := pure_yields_iff.mp h
      exact single (by rw [hk]; rfl) fun _ => .time hk hd
    · exact absurd h not_fail_yields
  | builtin =>
    rw [hk] at h
    exact call_reached hs hgap he hq hk h
  | mark m =>
    rw [hk] at h
    cases m with
    | minus => exact unary_reached hs .negate he hq hk h
    | bang => exact unary_reached hs .not he hq hk h
    | lparen => exact paren_reached hs he hq hk h
    | dollar => exact macroCall_reached hs he hq hk h
    | lbracket =>
      obtain ⟨l, c₁, hl, h⟩ := bind_yields_iff.mp h
      obtain ⟨rfl, rfl⟩ := pure_yields_iff.mp h
      obtain ⟨toks, hb, hL⟩ := list_reached he hk hl
      exact ⟨toks, hb, .list hL⟩
    | _ => exact absurd h not_fail_yields
  | keyword w =>
    rw [hk] at h
    cases w with
    | trueWord =>
      obtain ⟨rfl, rfl⟩ := pure_yields_iff.mp h
      exact single (by rw [hk]; rfl) fun _ => .boolean (by simpa using hk)
    | falseWord =>
      obtain ⟨rfl, rfl⟩ := pure_yields_iff.mp h
      exact single (by rw [hk]; rfl) fun _ => .boolean (by simpa using hk)
    | overWord => exact overClause_reached hs he hq hk h
    | whereWord => exact filter_reached hs he hq hk h
    | orderWord => exact orderBy_reached hs he hq hk h
    | aliasWord =>
      obtain ⟨clause, c₁, hc, h⟩ := bind_yields_iff.mp h
      obtain ⟨rfl, rfl⟩ := pure_yields_iff.mp h
      obtain ⟨toks, hb, hC⟩ := clause_reached he hk hc
      exact ⟨toks, hb, .label hC⟩
    | setWord =>
      obtain ⟨clause, c₁, hc, h⟩ := bind_yields_iff.mp h
      obtain ⟨rfl, rfl⟩ := pure_yields_iff.mp h
      obtain ⟨toks, hb, hC⟩ := clause_reached he hk hc
      exact ⟨toks, hb, .set hC⟩
    | _ => exact absurd h not_fail_yields
  | _ =>
    rw [hk] at h
    exact absurd h not_fail_yields

/-- An operator and its right operand, from the token after `c` on. -/
theorem operator_reachedAfter {power : Precedence} {left : Expr} (he : c.eof.kind = .eof)
    (hq : Quiet lax c c') (hpower : power < .of c.peek.kind)
    (h : Yields (operator sub left) c.advance e c') :
    ReachedAfter (Operation R power left) c c' e := by
  rw [operator, current_bind_yields_iff, Cursor.advance_current] at h
  cases hk : c.peek.kind with
  | mark m =>
    rw [hk] at h hpower
    cases hop : BinaryOp.ofMark? m with
    | none =>
      simp only [hop] at h
      exact absurd h not_fail_yields
    | some op =>
      simp only [hop] at h
      obtain rfl := BinaryOp.ofMark?_eq_some_iff.mp hop
      rw [advance_bind_yields_iff] at h
      obtain ⟨right, c₁, hr, h⟩ := bind_yields_iff.mp h
      obtain ⟨rfl, rfl⟩ := pure_yields_iff.mp h
      obtain ⟨toks, hb, hR⟩ := hs.after (c := c.advance) he hq hr
      exact ⟨_, (c.between_peek he (by rw [hk]; rfl)).trans hb, .binary hk hpower hR⟩
  | keyword w =>
    cases w with
    | inWord =>
      have h₁ := c.between_peek he (by rw [hk]; rfl)
      rw [hk] at h hpower
      simp only [member, current_bind_yields_iff, peek_bind_yields_iff] at h
      cases hn : c.advance.peek.kind with
      | mark m =>
        rw [hn] at h
        cases m with
        | lbracket =>
          obtain ⟨l, c₁, hl, h⟩ := bind_yields_iff.mp (advance_bind_yields_iff.mp h)
          obtain ⟨rfl, rfl⟩ := pure_yields_iff.mp h
          obtain ⟨toks, hb, hL⟩ := list_reached (c := c.advance.advance) he hn hl
          exact ⟨_, h₁.trans (c.advance.between_following.trans hb), .memberList hk hpower hL⟩
        | _ => exact absurd h not_fail_yields
      | keyword w =>
        rw [hn] at h
        cases w with
        | setWord =>
          obtain ⟨clause, c₁, hc, h⟩ := bind_yields_iff.mp (advance_bind_yields_iff.mp h)
          obtain ⟨rfl, rfl⟩ := pure_yields_iff.mp h
          obtain ⟨toks, hb, hC⟩ := clause_reached (c := c.advance.advance) he hn hc
          exact ⟨_, h₁.trans (c.advance.between_following.trans hb), .memberSet hk hpower hC⟩
        | _ => exact absurd h not_fail_yields
      | _ =>
        rw [hn] at h
        exact absurd h not_fail_yields
    | _ =>
      rw [hk] at h
      exact absurd h not_fail_yields
  | _ =>
    rw [hk] at h
    exact absurd h not_fail_yields

end Sub

/-- In front of a `,` or `)` no expression is read, whatever levels are left. -/
theorem expression_refuses (levels : Nat) (power : Precedence) {c : Cursor}
    (hk : c.current.kind = .mark .comma ∨ c.current.kind = .mark .rparen) :
    ∃ e c', Fails (expression levels power) c e c' ∧ e.token = c.current := by
  cases levels with
  | zero =>
    refine ⟨⟨.tooDeep, c.current⟩, c, ?_, rfl⟩
    rw [expression]
    exact fail_fails_iff.mpr ⟨rfl, rfl⟩
  | succ levels =>
    refine ⟨⟨noPrimary c.current.kind, c.current⟩, c, ?_, rfl⟩
    rw [expression, bind_fails_iff, primary, current_bind_fails_iff]
    refine .inl ?_
    rcases hk with hk | hk <;> rw [hk] <;> exact fail_fails_iff.mpr ⟨rfl, rfl⟩

section Levels

variable {lax : Prop} {gaps : Gaps}

/-- Going on after a left operand is a chain, if reading expressions one level deeper is sound and
so is going on from there. -/
theorem chain_succ_reachedAfter {levels : Nat}
    (hs : SubSound lax (expression levels) (Expression gaps levels))
    (ih : ∀ {power left c e c'}, c.eof.kind = .eof → Quiet lax c c' →
      Yields (chain levels power left) c e c' → ReachedAfter (Chain gaps levels power left) c c' e)
    {power : Precedence} {left e : Expr} {c c' : Cursor} (he : c.eof.kind = .eof)
    (hq : Quiet lax c c') (h : Yields (chain (levels + 1) power left) c e c') :
    ReachedAfter (Chain gaps (levels + 1) power left) c c' e := by
  rw [chain, peek_bind_yields_iff] at h
  split at h
  · rename_i hpower
    rw [advance_bind_yields_iff] at h
    obtain ⟨left', c₁, ho, h⟩ := bind_yields_iff.mp h
    have hp := c.precedes_advance.trans ((operator_steady hs.steady left).of_yields ho)
    have hp' := (chain_steady levels power left').of_yields h
    obtain ⟨front, hf, hO⟩ := operator_reachedAfter hs he (hq.left hp') hpower ho
    obtain ⟨back, hb, hC⟩ := ih (hp.eof ▸ he) (hq.right hp) h
    refine ⟨front ++ back, hf.trans hb, .inr (.intro ?_ hC)⟩
    rwa [Cursor.headD_eq_peek hb hp'.eof]
  · rename_i hpower
    obtain ⟨rfl, rfl⟩ := pure_yields_iff.mp h
    exact ⟨[], .refl _, .inl (.intro hpower)⟩

variable (hgaps : lax → ∀ levels, Excuses (expression levels) (gaps levels))
include hgaps

theorem subSound_and_chain (levels : Nat) :
    SubSound lax (expression levels) (Expression gaps levels) ∧
      ∀ {power left c e c'}, c.eof.kind = .eof → Quiet lax c c' →
        Yields (chain levels power left) c e c' →
        ReachedAfter (Chain gaps levels power left) c c' e := by
  induction levels with
  | zero =>
    refine ⟨⟨expression_steady 0, fun he hq h => ?_, expression_refuses 0⟩, fun he hq h => ?_⟩
    · rw [expression, current_bind_yields_iff] at h
      exact absurd h not_fail_yields
    · rw [chain, peek_bind_yields_iff] at h
      split at h
      · rw [advance_bind_yields_iff, current_bind_yields_iff] at h
        exact absurd h not_fail_yields
      · rename_i hpower
        obtain ⟨rfl, rfl⟩ := pure_yields_iff.mp h
        exact ⟨[], .refl _, .intro hpower⟩
  | succ levels ih =>
    refine ⟨⟨expression_steady _, fun {power e c'} c he hq h => ?_, expression_refuses _⟩,
      chain_succ_reachedAfter ih.1 ih.2⟩
    rw [expression] at h
    obtain ⟨left, c₁, hl, h⟩ := bind_yields_iff.mp h
    have hp := (primary_steady ih.1.steady).of_yields hl
    have hp' := (chain_steady levels _ left).of_yields h
    obtain ⟨front, hf, hP⟩ :=
      primary_reached ih.1 (fun hlax => hgaps hlax levels) he (hq.left hp') hl
    obtain ⟨back, hb, hC⟩ := ih.2 (hp.eof ▸ he) (hq.right hp) h
    refine ⟨front ++ back, hf.trans hb, .intro ?_ hC⟩
    rwa [Cursor.headD_eq_peek hb hp'.eof]

/-- Expressions are read as the grammar has them. -/
theorem expression_sound (levels : Nat) :
    SubSound lax (expression levels) (Expression gaps levels) := (subSound_and_chain hgaps levels).1

end Levels

theorem excuses_any (levels : Nat) : Excuses (expression levels) (Gaps.any levels) :=
  fun _ _ _ => trivial

end PayFormula.Grammar
