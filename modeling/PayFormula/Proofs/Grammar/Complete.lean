import PayFormula.Proofs.Grammar
import PayFormula.Proofs.Reading.Between

/-!
# Every phrase is read

The converse of soundness: where the tokens of a phrase stand, the reader yields
the tree and stops behind them, if it skips what the grammar passes over. In a
strict phrase there is nothing of that, and no error is recorded. So the strict
grammar says exactly what is read without errors.

Readers see the tokens ahead without the comments. What remains of a repetition
is bounded by the tokens left, of which every round takes one.
-/
namespace PayFormula

namespace Read

variable {quiet : Prop} {α β : Type} {c : Cursor} {a : α} {b : β} {after middle : List Token}
  {t : Token}

/-- From the cursor the reader yields a value and stops in front of the tokens, and records no error
if it has to be quiet. -/
def Consumes (quiet : Prop) (x : Read α) (c : Cursor) (a : α) (after : List Token) : Prop :=
  ∃ c', Yields x c a c' ∧ c'.ahead = after ∧ c'.eof = c.eof ∧ (quiet → c'.errors = c.errors)

theorem Consumes.bind {x : Read α} {f : α → Read β} (h : Consumes quiet x c a middle)
    (hf : ∀ c', c'.ahead = middle → c'.eof = c.eof → Consumes quiet (f a) c' b after) :
    Consumes quiet (x >>= f) c b after := by
  obtain ⟨c₁, hx, hahead, heof, herrors⟩ := h
  obtain ⟨c₂, hy, hahead', heof', herrors'⟩ := hf c₁ hahead heof
  exact ⟨c₂, bind_yields_iff.mpr ⟨a, c₁, hx, hy⟩, hahead', heof'.trans heof,
    fun h => (herrors' h).trans (herrors h)⟩

theorem consumes_pure (h : c.ahead = after) : Consumes quiet (pure a) c a after :=
  ⟨c, pure_yields_iff.mpr ⟨rfl, rfl⟩, h, rfl, fun _ => rfl⟩

theorem consumes_current {f : Token → Read β} (h : Consumes quiet (f c.current) c b after) :
    Consumes quiet (current >>= f) c b after := h

theorem consumes_peek {f : Token → Read β} (h : Consumes quiet (f c.peek) c b after) :
    Consumes quiet (peek >>= f) c b after := h

theorem consumes_advance {f : Unit → Read β} (h : Consumes quiet (f ()) c.advance b after) :
    Consumes quiet (advance >>= f) c b after := h

theorem consumes_remaining {f : Nat → Read β} (h : Consumes quiet (f c.rest.length) c b after) :
    Consumes quiet (remaining >>= f) c b after := h

theorem expect_consumes {kind : TokenKind} (h : c.ahead = t :: after) (hk : t.kind = kind) :
    Consumes quiet (expect kind) c t after := by
  have hp := Cursor.peek_of_ahead h
  exact ⟨c.advance, expect_yields_iff.mpr ⟨hp ▸ hk, hp.symm, rfl⟩,
    Cursor.advance_ahead_of_ahead h, rfl, fun _ => rfl⟩

theorem expectClosing_consumes {opening closing : Mark} (h : c.ahead = t :: after)
    (hk : t.kind = .mark closing) : Consumes quiet (expectClosing opening closing) c t after := by
  have hp := Cursor.peek_of_ahead h
  exact ⟨c.advance, expectClosing_yields_iff.mpr ⟨hp ▸ hk, hp.symm, rfl⟩,
    Cursor.advance_ahead_of_ahead h, rfl, fun _ => rfl⟩

theorem expectName_consumes (h : c.ahead = t :: after) (hn : t.IsName) :
    Consumes quiet expectName c ⟨t⟩ after := by
  have hp := Cursor.peek_of_ahead h
  exact ⟨c.advance, expectName_yields_iff.mpr ⟨hp ▸ hn, by rw [hp], rfl⟩,
    Cursor.advance_ahead_of_ahead h, rfl, fun _ => rfl⟩

theorem nameClause_consumes (h : c.ahead = t :: after) (hn : t.IsName) :
    Consumes quiet nameClause c ⟨c.current, ⟨t⟩⟩ after := by
  have hp := Cursor.peek_of_ahead h
  exact ⟨c.advance, nameClause_yields_iff.mpr ⟨hp ▸ hn, by rw [hp], rfl⟩,
    Cursor.advance_ahead_of_ahead h, rfl, fun _ => rfl⟩

end Read

/-- The kinds of tokens with which expressions start. -/
def TokenKind.starts : TokenKind → Bool
  | .ident | .builtin | .int | .float | .string | .date | .time => true
  | .mark m => m ∈ [.minus, .bang, .lparen, .dollar, .lbracket]
  | .keyword w =>
    w ∈ [.trueWord, .falseWord, .overWord, .whereWord, .orderWord, .aliasWord, .setWord]
  | _ => false

namespace Grammar

open Read

variable {quiet : Prop}

theorem primary_starts {gap : Phrase SyntaxError} {sub : SubPhrase} {toks : List Token}
    {next : Token} {e : Expr} (h : Primary gap sub toks next e) :
    ∃ t ts, toks = t :: ts ∧ t.kind.starts := by
  cases h with
  | number hk _ => exact ⟨_, _, rfl, by rcases hk with hk | hk <;> rw [hk] <;> rfl⟩
  | ident hn => exact ⟨_, _, rfl, by rw [hn.kind]; rfl⟩
  | @boolean _ _ value hk => exact ⟨_, _, rfl, by rw [hk]; cases value <;> rfl⟩
  | @unary _ _ op _ _ hk _ => exact ⟨_, _, rfl, by rw [hk]; cases op <;> rfl⟩
  | label hc | set hc =>
    cases hc with
    | intro hk _ => exact ⟨_, _, rfl, by rw [hk]; rfl⟩
  | list hl =>
    cases hl with
    | intro hk _ _ => exact ⟨_, _, rfl, by rw [hk]; rfl⟩
  | string hk | date hk _ | time hk _ | unit hk _ | paren hk _ _ | macroUnit hk _ _ _ _
  | macroCall hk _ _ _ _ _ | callUnit hk _ _ | call hk _ _ _ _ | overClause hk _ _
  | overAlias hk _ _ _ | filter hk _ | orderBy hk _ _ _ _ | orderByDirection hk _ _ _ =>
    exact ⟨_, _, rfl, by rw [hk]; rfl⟩

theorem expression_starts {gaps : Gaps} {levels : Nat} {power : Precedence} {toks : List Token}
    {next : Token} {e : Expr} (h : Expression gaps levels power toks next e) :
    ∃ t ts, toks = t :: ts ∧ t.kind.starts := by
  cases levels with
  | zero => exact h.elim
  | succ levels =>
    cases h with
    | intro hp _ =>
      obtain ⟨t, ts, rfl, hk⟩ := primary_starts hp
      exact ⟨t, _, rfl, hk⟩

theorem length_strings_le {toks : List Token} {ss : List StringLiteral} (h : Strings toks ss) :
    ss.length ≤ toks.length := by
  induction h with
  | nil => exact Nat.zero_le _
  | last => exact Nat.le_refl _
  | cons _ _ _ ih =>
    rw [List.length_cons, List.length_cons, List.length_cons]
    omega

theorem strings_consumes {n : Nat} {toks after : List Token} {ss : List StringLiteral} {r : Token}
    (h : Strings toks ss) (hn : ss.length ≤ n) (hr : r.kind = .mark .rbracket) {c : Cursor}
    (hc : c.ahead = toks ++ r :: after) : Consumes quiet (strings n) c ss (r :: after) := by
  induction h generalizing n c with
  | nil =>
    cases n with
    | zero => exact consumes_pure hc
    | succ n =>
      refine consumes_peek ?_
      rw [if_neg (by rw [Cursor.peek_of_ahead hc, hr]; simp)]
      exact consumes_pure hc
  | @last s hs =>
    cases n with
    | zero => simp at hn
    | succ n =>
      have ha := Cursor.advance_ahead_of_ahead hc
      refine consumes_peek ?_
      rw [Cursor.peek_of_ahead hc, if_pos hs]
      refine consumes_advance (consumes_peek ?_)
      rw [if_neg (by rw [Cursor.peek_of_ahead ha, hr]; simp)]
      exact consumes_pure ha
  | @cons s comma toks ss hs hcomma _ ih =>
    cases n with
    | zero => simp at hn
    | succ n =>
      have ha := Cursor.advance_ahead_of_ahead hc
      refine consumes_peek ?_
      rw [Cursor.peek_of_ahead hc, if_pos hs]
      refine consumes_advance (consumes_peek ?_)
      rw [if_pos (by rw [Cursor.peek_of_ahead ha, hcomma])]
      refine consumes_advance ?_
      have hstrings := ih (n := n) (by simpa using hn) (Cursor.advance_ahead_of_ahead ha)
      exact hstrings.bind fun c' hc' _ => consumes_pure hc'

theorem list_consumes {toks after : List Token} {next : Token} {l : ListLiteral} {c : Cursor}
    (h : Listing toks next l) (hc : c.current :: c.ahead = toks ++ after) :
    Consumes quiet Read.list c l after := by
  cases h with
  | @intro lb r _ toks ss hl hS hr =>
    simp only [List.cons_append, List.append_assoc, List.nil_append, List.cons.injEq] at hc
    obtain ⟨rfl, hc⟩ := hc
    have hlen := length_strings_le hS
    have hahead := c.length_ahead_le
    rw [hc, List.length_append] at hahead
    have hpeek : c.peek.kind = .string ∨ c.peek.kind = .mark .rbracket := by
      rw [c.peek_eq_headD, hc]
      cases hS with
      | nil => exact .inr hr
      | last hs => exact .inl hs
      | cons hs _ _ => exact .inl hs
    refine consumes_current (consumes_peek ?_)
    rw [if_pos hpeek]
    refine consumes_remaining ((strings_consumes hS (by omega) hr hc).bind ?_)
    intro c' hc' _
    exact (expectClosing_consumes hc' hr).bind fun c' hc' _ => consumes_pure hc'

theorem list_head {toks after : List Token} {next : Token} {l : ListLiteral} {c : Cursor}
    (h : Listing toks next l) (hc : c.current :: c.ahead = toks ++ after) :
    c.current.kind = .mark .lbracket := by
  cases h with
  | intro hl _ _ =>
    rw [(List.cons.inj hc).1]
    exact hl

section Tokens

variable {c : Cursor} {t : Token} {toks after : List Token} {next : Token}

theorem number_consumes {d : Decimal} (h : Decimal.ofChars? t.literal.toList = some d)
    (hc : c.ahead = after) : Consumes quiet (number t) c (.number t d.toDouble) after := by
  unfold number
  rw [h]
  exact consumes_pure hc

theorem date_consumes {d : Date} (h : Date.ofChars t.literal.toList = .ok d)
    (hc : c.ahead = after) : Consumes quiet (date t) c (.date t d) after := by
  unfold date
  rw [h]
  exact consumes_pure hc

theorem time_consumes {clock : Clock} (h : Clock.ofChars t.literal.toList = .ok clock)
    (hc : c.ahead = after) : Consumes quiet (time t) c (.time t clock) after := by
  unfold time
  rw [h]
  exact consumes_pure hc

theorem ident_consumes (ht : c.current = t) (hn : t.IsName) (hc : c.ahead = after) :
    Consumes quiet ident c ⟨t⟩ after := by
  subst ht
  refine ⟨c, ident_yields_iff.mpr ⟨hn.nonempty, hn.not_blank, hn.not_reserved, rfl, rfl⟩, hc,
    rfl, fun _ => rfl⟩

/-- The clause that a keyword and a name stand for. -/
theorem clause_consumes {word : Keyword} {clause : NameClause} (h : Clause word toks next clause)
    (hc : c.current :: c.ahead = toks ++ after) : Consumes quiet nameClause c clause after := by
  cases h with
  | intro _ hn =>
    simp only [List.cons_append, List.nil_append, List.cons.injEq] at hc
    obtain ⟨rfl, hc⟩ := hc
    exact nameClause_consumes hc hn

theorem clause_head {word : Keyword} {clause : NameClause} (h : Clause word toks next clause) :
    ∃ n, toks = [clause.token, n] ∧ clause.token.kind = .keyword word := by
  cases h with
  | intro hk _ => exact ⟨_, rfl, hk⟩

end Tokens

section Sub

/-- Expressions that start as those of the grammar do. -/
def SubStarts (R : SubPhrase) : Prop :=
  ∀ {power toks next e}, R power toks next e → ∃ t ts, toks = t :: ts ∧ t.kind.starts

/-- A reader of expressions that reads every expression of a grammar. -/
structure SubComplete (quiet : Prop) (sub : SubReader) (R : SubPhrase) : Prop where
  reads : ∀ {power toks next e}, R power toks next e → ∀ {c : Cursor} {after},
    c.current :: c.ahead = toks ++ after → after.headD c.eof = next →
    Consumes quiet (sub power) c e after
  starts : SubStarts R

variable {sub : SubReader} {R : SubPhrase} (hs : SubComplete quiet sub R)
  {c : Cursor} {toks after : List Token} {next : Token} {e : Expr}
include hs

/-- An expression that stands ahead is read after advancing. -/
theorem SubComplete.ahead {power : Precedence} (h : R power toks next e)
    (hc : c.ahead = toks ++ after) (hnext : after.headD c.eof = next) :
    Consumes quiet (sub power) c.advance e after := by
  obtain ⟨t, ts, rfl, -⟩ := hs.starts h
  exact hs.reads h (Cursor.advance_of_ahead hc) hnext

theorem binding_consumes {b : Binding} (h : Bound R toks b)
    (hc : c.current :: c.ahead = toks ++ after) : Consumes quiet (binding sub) c b after := by
  cases h with
  | @intro t n eq semicolon toks value _ hn heq hv hsemi =>
    simp only [List.cons_append, List.append_assoc, List.nil_append, List.cons.injEq] at hc
    obtain ⟨rfl, hc⟩ := hc
    refine consumes_current ((expectName_consumes hc hn).bind ?_)
    intro c₁ hc₁ he₁
    refine (expect_consumes hc₁ heq).bind ?_
    intro c₂ hc₂ he₂
    refine consumes_advance ((hs.ahead hv hc₂ rfl).bind ?_)
    intro c₃ hc₃ _
    refine consumes_peek ?_
    rw [Cursor.peek_of_ahead hc₃, if_pos hsemi]
    exact consumes_advance (consumes_pure (Cursor.advance_ahead_of_ahead hc₃))

omit hs in
theorem length_bounds_le {bs : List Binding} (h : Bounds R toks bs) :
    2 * bs.length ≤ toks.length := by
  induction h with
  | nil => exact Nat.le_refl _
  | @cons front back b bs hb _ ih =>
    have hfront : 2 ≤ front.length := by
      cases hb
      simp
    rw [List.length_append, List.length_cons]
    omega

/-- Bindings are read up to a token that starts an expression, which becomes the current one. -/
theorem bindings_consumes {n : Nat} {bs : List Binding} (h : Bounds R toks bs) (hn : bs.length ≤ n)
    {t : Token} (ht : t.kind.starts) (hc : c.current :: c.ahead = toks ++ t :: after) :
    ∃ c', Yields (bindings sub n) c bs c' ∧ c'.current :: c'.ahead = t :: after ∧
      c'.eof = c.eof ∧ (quiet → c'.errors = c.errors) := by
  induction h generalizing n c with
  | nil =>
    refine ⟨c, ?_, hc, rfl, fun _ => rfl⟩
    cases n with
    | zero => exact pure_yields_iff.mpr ⟨rfl, rfl⟩
    | succ n =>
      have hcurrent : c.current = t := (List.cons.inj hc).1
      rw [bindings, current_bind_yields_iff, if_neg]
      · exact pure_yields_iff.mpr ⟨rfl, rfl⟩
      · rw [hcurrent]
        intro hvar
        rw [hvar] at ht
        cases ht
  | @cons front back b bs hb hbs ih =>
    cases n with
    | zero => simp at hn
    | succ n =>
      have hvar : c.current.kind = .keyword .varWord := by
        cases hb with
        | intro hk _ _ _ _ => rwa [(List.cons.inj hc).1]
      rw [List.append_assoc] at hc
      obtain ⟨c₁, hb₁, ha₁, he₁, hr₁⟩ := binding_consumes hs hb hc
      have hc₁ : c₁.advance.current :: c₁.advance.ahead = back ++ t :: after := by
        cases hback : back ++ t :: after with
        | nil => simp at hback
        | cons u us =>
          exact Cursor.advance_of_ahead (hback ▸ ha₁)
      obtain ⟨c₂, hb₂, ha₂, he₂, hr₂⟩ := ih (n := n) (by simpa using hn) hc₁
      refine ⟨c₂, ?_, ha₂, he₂.trans he₁, fun h => (hr₂ h).trans (hr₁ h)⟩
      rw [bindings, current_bind_yields_iff, if_pos hvar, bind_yields_iff]
      refine ⟨b, c₁, hb₁, ?_⟩
      rw [advance_bind_yields_iff, bind_yields_iff]
      exact ⟨bs, c₂, hb₂, pure_yields_iff.mpr ⟨rfl, rfl⟩⟩

theorem block_consumes {b : Block} (h : Blocks R toks next b)
    (hc : c.current :: c.ahead = toks ++ after) (hnext : after.headD c.eof = next) :
    Consumes quiet (block sub) c b after := by
  cases h with
  | @intro front back _ bs value hbs hv =>
    obtain ⟨t, ts, rfl, ht⟩ := hs.starts hv
    rw [List.append_assoc] at hc
    have hlen : bs.length ≤ c.rest.length := by
      have hbounds := length_bounds_le hbs
      have hahead := c.length_ahead_le
      have hall := congrArg List.length hc
      rw [List.length_append, List.length_cons, List.cons_append, List.length_cons] at hall
      omega
    obtain ⟨c₁, hb₁, ha₁, he₁, hr₁⟩ := bindings_consumes hs hbs hlen ht hc
    obtain ⟨c₂, hv₂, ha₂, he₂, hr₂⟩ := hs.reads hv (c := c₁) ha₁ (he₁ ▸ hnext)
    refine ⟨c₂, ?_, ha₂, he₂.trans he₁, fun h => (hr₂ h).trans (hr₁ h)⟩
    rw [block, remaining_bind_yields_iff, bind_yields_iff]
    refine ⟨bs, c₁, hb₁, bind_yields_iff.mpr ⟨value, c₂, hv₂, ?_⟩⟩
    exact pure_yields_iff.mpr ⟨rfl, rfl⟩

omit hs in
/-- There are tokens enough for all items, and for what closes them. -/
theorem length_items_le {item : Phrase Expr} {stop : Token} {as : List Expr}
    (h : Items item toks stop as) : as.length ≤ toks.length + 1 := by
  induction h with
  | last => simp
  | cons _ _ _ ih =>
    rw [List.length_append, List.length_cons, List.length_cons]
    omega

omit hs in
theorem length_items_le_rest {item : Phrase Expr} {r : Token} {as : List Expr}
    (h : Items item toks r as) (hc : c.ahead = toks ++ r :: after) :
    as.length ≤ c.rest.length := by
  have hlen := length_items_le h
  have hahead := c.length_ahead_le
  rw [hc, List.length_append, List.length_cons] at hahead
  omega

omit hs in
theorem blocks_starts {b : Block} (hstarts : SubStarts R) (h : Blocks R toks next b) :
    ∃ t ts, toks = t :: ts ∧ (t.kind.starts ∨ t.kind = .keyword .varWord) := by
  cases h with
  | intro hbs hv =>
    cases hbs with
    | nil =>
      obtain ⟨t, ts, rfl, ht⟩ := hstarts hv
      exact ⟨t, ts, rfl, .inl ht⟩
    | cons hb _ =>
      cases hb with
      | intro hk _ _ _ _ => exact ⟨_, _, rfl, .inr hk⟩

theorem block_ahead {b : Block} (h : Blocks R toks next b) (hc : c.ahead = toks ++ after)
    (hnext : after.headD c.eof = next) : Consumes quiet (block sub) c.advance b after := by
  obtain ⟨t, ts, rfl, -⟩ := blocks_starts hs.starts h
  exact block_consumes hs h (Cursor.advance_of_ahead hc) hnext

theorem paren_consumes {l r : Token} {b : Block} (h : Blocks R toks r b)
    (hr : r.kind = .mark .rparen) (hl : c.current = l) (hc : c.ahead = toks ++ r :: after) :
    Consumes quiet (paren sub) c (.paren l b r) after := by
  subst hl
  obtain ⟨t, ts, rfl, ht⟩ := blocks_starts hs.starts h
  refine consumes_current (consumes_peek ?_)
  rw [if_neg]
  · refine consumes_advance ((block_ahead hs h hc rfl).bind ?_)
    intro c₁ hc₁ _
    exact (expectClosing_consumes hc₁ hr).bind fun c' hc' _ => consumes_pure hc'
  · rw [Cursor.peek_of_ahead hc]
    intro hk
    rw [hk] at ht
    simp [TokenKind.starts] at ht

theorem macroArgs_consumes {n : Nat} {args : List Expr} {r : Token}
    (h : Items (R .lowest) toks r args) (hn : args.length ≤ n) (hr : r.kind = .mark .rparen)
    (hc : c.ahead = toks ++ r :: after) : Consumes quiet (macroArgs sub n) c args (r :: after) := by
  induction h generalizing n c with
  | last ha =>
    cases n with
    | zero => simp at hn
    | succ n =>
      refine consumes_advance ((hs.ahead ha hc rfl).bind ?_)
      intro c₁ hc₁ _
      refine consumes_peek ?_
      rw [if_neg (by rw [Cursor.peek_of_ahead hc₁, hr]; simp)]
      exact consumes_pure hc₁
  | @cons toks rest comma stop a as ha hcomma _ ih =>
    cases n with
    | zero => simp at hn
    | succ n =>
      rw [List.append_assoc] at hc
      refine consumes_advance ((hs.ahead ha hc rfl).bind ?_)
      intro c₁ hc₁ _
      refine consumes_peek ?_
      rw [if_pos (by rw [Cursor.peek_of_ahead hc₁, hcomma])]
      refine consumes_advance ?_
      have hargs := ih (n := n) (by simpa using hn) hr (Cursor.advance_ahead_of_ahead hc₁)
      exact hargs.bind fun c' hc' _ => consumes_pure hc'

theorem macroCall_consumes {d n l r closing : Token} {args : List Expr} (hd : c.current = d)
    (hn : n.IsName) (hl : l.kind = .mark .lparen)
    (hargs : toks = [] ∧ args = [] ∨ Items (R .lowest) toks r args)
    (hr : r.kind = .mark .rparen) (hclosing : closing.kind = .mark .dollar)
    (hc : c.ahead = n :: l :: (toks ++ r :: closing :: after)) :
    Consumes quiet (macroCall sub) c (.macroCall d ⟨n⟩ l args r closing) after := by
  subst hd
  refine consumes_current ((expectName_consumes hc hn).bind ?_)
  intro c₁ hc₁ _
  refine (expect_consumes hc₁ hl).bind ?_
  intro c₂ hc₂ _
  have hend {c' : Cursor} {args : List Expr} (hc' : c'.ahead = r :: closing :: after) :
      Consumes quiet (expectClosing .lparen .rparen >>= fun rparen =>
        expectClosing .dollar .dollar >>= fun closing =>
          (pure (.macroCall c.current ⟨n⟩ l args rparen closing) : Read Expr)) c'
        (.macroCall c.current ⟨n⟩ l args r closing) after := by
    refine (expectClosing_consumes hc' hr).bind ?_
    intro c₃ hc₃ _
    exact (expectClosing_consumes hc₃ hclosing).bind fun c' hc' _ => consumes_pure hc'
  refine consumes_peek ?_
  rcases hargs with ⟨rfl, rfl⟩ | hargs
  · rw [Cursor.peek_of_ahead hc₂, if_pos hr]
    exact (consumes_pure hc₂).bind fun c' hc' _ => hend hc'
  · have hpeek : c₂.peek.kind ≠ .mark .rparen := by
      cases hargs with
      | last ha | cons ha _ _ =>
        obtain ⟨t, ts, rfl, ht⟩ := hs.starts ha
        simp only [List.cons_append, List.append_assoc] at hc₂
        rw [Cursor.peek_of_ahead hc₂]
        intro hk
        rw [hk] at ht
        cases ht
    rw [if_neg hpeek]
    have hlen := length_items_le_rest hargs hc₂
    exact consumes_remaining ((macroArgs_consumes hs hargs hlen hr hc₂).bind
      fun c' hc' _ => hend hc')

/-- Readers of arguments that skip what the grammar passes over. They record an error for it. -/
structure Skips (quiet : Prop) (sub : SubReader) (gap : Phrase SyntaxError) : Prop where
  recovers : ∀ {toks stop e}, gap toks stop e →
    stop.kind = .mark .comma ∨ stop.kind = .mark .rparen →
    ∀ {c : Cursor} {after}, c.ahead = toks ++ stop :: after →
      ∃ c', Yields (argumentOrPlaceholder sub) c.advance (.failed e toks) c' ∧
        c'.current :: c'.ahead = stop :: after ∧ c'.eof = c.eof
  loud : ∀ {toks stop e}, gap toks stop e → ¬ quiet

variable {gap : Phrase SyntaxError} (hgap : Skips quiet sub gap)
include hgap

/-- An argument or its placeholder is read up to what ends it, which becomes the current token. -/
theorem argumentOrPlaceholder_consumes {stop : Token} (h : Argument gap R toks stop e)
    (hk : stop.kind = .mark .comma ∨ stop.kind = .mark .rparen)
    (hc : c.ahead = toks ++ stop :: after) :
    ∃ c', Yields (argumentOrPlaceholder sub) c.advance e c' ∧
      c'.current :: c'.ahead = stop :: after ∧ c'.eof = c.eof ∧
      (quiet → c'.errors = c.errors) := by
  have hblock {b : Block} (hb : Blocks R toks stop b)
      (he : e = if b.bindings.isEmpty then b.value else .block b) :
      ∃ c', Yields (argumentOrPlaceholder sub) c.advance e c' ∧
        c'.current :: c'.ahead = stop :: after ∧ c'.eof = c.eof ∧
        (quiet → c'.errors = c.errors) := by
    have hargument : Consumes quiet (argument sub) c.advance e (stop :: after) := by
      refine (block_consumes hs hb (Cursor.advance_of_ahead_append hc) rfl).bind ?_
      intro c₁ hc₁ _
      refine consumes_peek ?_
      rw [Cursor.peek_of_ahead hc₁, if_pos hk, he]
      exact consumes_pure hc₁
    obtain ⟨c₁, hy, hc₁, he₁, hr₁⟩ := hargument
    exact ⟨c₁.advance, argumentOrPlaceholder_of_yields hy, Cursor.advance_of_ahead hc₁, he₁, hr₁⟩
  cases h with
  | value hv => exact hblock (b := ⟨[], e⟩) (.intro .nil hv) rfl
  | @block _ _ b hb hne =>
    refine hblock hb ?_
    rw [if_neg]
    rwa [List.isEmpty_iff]
  | failed hpassed _ =>
    obtain ⟨c', hy, hc', he'⟩ := hgap.recovers hpassed hk hc
    exact ⟨c', hy, hc', he', fun hquiet => absurd hquiet (hgap.loud hpassed)⟩

theorem arguments_consumes {n : Nat} {args : List Expr} {r : Token}
    (h : Items (Argument gap R) toks r args) (hn : args.length ≤ n) (hr : r.kind = .mark .rparen)
    (hc : c.ahead = toks ++ r :: after) : Consumes quiet (arguments sub n) c (args, r) after := by
  induction h generalizing n c with
  | @last toks stop a ha =>
    cases n with
    | zero => simp at hn
    | succ n =>
      obtain ⟨c₁, hy, hc₁, he₁, hr₁⟩ :=
        argumentOrPlaceholder_consumes hs hgap ha (.inr hr) hc
      obtain ⟨hcurrent, hahead⟩ := List.cons.inj hc₁
      refine ⟨c₁, ?_, hahead, he₁, hr₁⟩
      rw [arguments, advance_bind_yields_iff, bind_yields_iff]
      refine ⟨a, c₁, hy, ?_⟩
      rw [current_bind_yields_iff, hcurrent, if_pos hr]
      exact pure_yields_iff.mpr ⟨rfl, rfl⟩
  | @cons toks rest comma stop a as ha hcomma _ ih =>
    cases n with
    | zero => simp at hn
    | succ n =>
      rw [List.append_assoc] at hc
      obtain ⟨c₁, hy, hc₁, he₁, hr₁⟩ :=
        argumentOrPlaceholder_consumes hs hgap ha (.inl hcomma) hc
      obtain ⟨hcurrent, hahead⟩ := List.cons.inj hc₁
      obtain ⟨c₂, hy₂, hc₂, he₂, hr₂⟩ := ih (n := n) (by simpa using hn) hr hahead
      refine ⟨c₂, ?_, hc₂, he₂.trans he₁, fun h => (hr₂ h).trans (hr₁ h)⟩
      rw [arguments, advance_bind_yields_iff, bind_yields_iff]
      refine ⟨a, c₁, hy, ?_⟩
      rw [current_bind_yields_iff, hcurrent, if_neg (by rw [hcomma]; simp), bind_yields_iff]
      exact ⟨(as, stop), c₂, hy₂, pure_yields_iff.mpr ⟨rfl, rfl⟩⟩

theorem call_consumes {t l r : Token} {args : List Expr} (ht : c.current = t)
    (hl : l.kind = .mark .lparen)
    (hargs : toks = [] ∧ args = [] ∨
      (toks.headD r).kind ≠ .mark .rparen ∧ Items (Argument gap R) toks r args)
    (hr : r.kind = .mark .rparen) (hc : c.ahead = l :: (toks ++ r :: after)) :
    Consumes quiet (call sub) c (.call t l args r) after := by
  subst ht
  refine consumes_current ((expect_consumes hc hl).bind ?_)
  intro c₁ hc₁ _
  refine consumes_peek ?_
  rcases hargs with ⟨rfl, rfl⟩ | ⟨hopen, hargs⟩
  · rw [Cursor.peek_of_ahead hc₁, if_pos hr]
    exact consumes_advance (consumes_pure (Cursor.advance_ahead_of_ahead hc₁))
  · have hpeek : c₁.peek = toks.headD r := by
      cases toks with
      | nil => exact Cursor.peek_of_ahead hc₁
      | cons t toks => exact Cursor.peek_of_ahead hc₁
    rw [if_neg (hpeek ▸ hopen)]
    have hlen := length_items_le_rest hargs hc₁
    refine consumes_remaining ((arguments_consumes hs hgap hargs hlen hr hc₁).bind ?_)
    exact fun c' hc' _ => consumes_pure hc'

omit hgap in
theorem unary_consumes {t : Token} {op : UnaryOp} (ht : c.current = t) (h : R .unary toks next e)
    (hc : c.ahead = toks ++ after) (hnext : after.headD c.eof = next) :
    Consumes quiet (unary op sub) c (.unary t op e) after := by
  subst ht
  refine consumes_current (consumes_advance ((hs.ahead h hc hnext).bind ?_))
  exact fun c' hc' _ => consumes_pure hc'

omit hgap in
theorem filter_consumes {t : Token} (ht : c.current = t) (h : R .lowest toks next e)
    (hc : c.ahead = toks ++ after) (hnext : after.headD c.eof = next) :
    Consumes quiet (filter sub) c (.filter t e) after := by
  subst ht
  refine consumes_current (consumes_advance ((hs.ahead h hc hnext).bind ?_))
  exact fun c' hc' _ => consumes_pure hc'

omit hgap in
theorem overClause_consumes {t : Token} (ht : c.current = t) (h : R .lowest toks next e)
    (halias : next.kind ≠ .keyword .aliasWord)
    (hc : c.ahead = toks ++ after) (hnext : after.headD c.eof = next) :
    Consumes quiet (overClause sub) c (.overClause t e none) after := by
  subst ht
  refine consumes_current (consumes_advance ((hs.ahead h hc hnext).bind ?_))
  intro c₁ hc₁ he₁
  refine consumes_peek ?_
  have hpeek : c₁.peek = next := by
    rw [c₁.peek_eq_headD, hc₁, he₁]
    exact hnext
  rw [hpeek, if_neg halias]
  exact consumes_pure hc₁

omit hgap in
theorem overAlias_consumes {t a n : Token} (ht : c.current = t) (h : R .lowest toks a e)
    (ha : a.kind = .keyword .aliasWord) (hn : n.IsName)
    (hc : c.ahead = toks ++ a :: n :: after) :
    Consumes quiet (overClause sub) c (.overClause t e (some ⟨a, ⟨n⟩⟩)) after := by
  subst ht
  refine consumes_current (consumes_advance ((hs.ahead h hc rfl).bind ?_))
  intro c₁ hc₁ _
  have hadvance := Cursor.advance_ahead_of_ahead hc₁
  have hcurrent : c₁.advance.current = a := Cursor.peek_of_ahead hc₁
  refine consumes_peek ?_
  rw [Cursor.peek_of_ahead hc₁, if_pos ha]
  refine consumes_advance ((nameClause_consumes hadvance hn).bind ?_)
  rw [hcurrent]
  exact fun c' hc' _ => consumes_pure hc'

omit hgap in
theorem orderBy_consumes {t word : Token} (ht : c.current = t)
    (hword : word.kind = .keyword .byWord)
    (h : R .lowest toks next e) (hasc : next.kind ≠ .keyword .ascWord)
    (hdesc : next.kind ≠ .keyword .descWord)
    (hc : c.ahead = word :: (toks ++ after)) (hnext : after.headD c.eof = next) :
    Consumes quiet (orderBy sub) c (.orderBy t word e none) after := by
  subst ht
  refine consumes_current ((expect_consumes hc hword).bind ?_)
  intro c₁ hc₁ he₁
  refine consumes_advance ((hs.ahead h hc₁ (he₁ ▸ hnext)).bind ?_)
  intro c₂ hc₂ he₂
  refine consumes_peek ?_
  have hpeek : c₂.peek = next := by
    rw [c₂.peek_eq_headD, hc₂, he₂, c₁.advance_eof, he₁]
    exact hnext
  rw [hpeek]
  split
  · contradiction
  · contradiction
  · exact consumes_pure hc₂

omit hgap in
theorem orderByDirection_consumes {t word d : Token} {direction : Direction} (ht : c.current = t)
    (hword : word.kind = .keyword .byWord) (h : R .lowest toks d e)
    (hd : d.kind = .keyword (if direction = .ascending then .ascWord else .descWord))
    (hc : c.ahead = word :: (toks ++ d :: after)) :
    Consumes quiet (orderBy sub) c (.orderBy t word e (some ⟨d, direction⟩)) after := by
  subst ht
  refine consumes_current ((expect_consumes hc hword).bind ?_)
  intro c₁ hc₁ _
  refine consumes_advance ((hs.ahead h hc₁ rfl).bind ?_)
  intro c₂ hc₂ _
  refine consumes_peek ?_
  have hadvance := Cursor.advance_ahead_of_ahead hc₂
  rw [Cursor.peek_of_ahead hc₂]
  cases direction with
  | ascending =>
    rw [hd]
    exact consumes_advance (consumes_pure hadvance)
  | descending =>
    rw [hd]
    exact consumes_advance (consumes_pure hadvance)

theorem primary_consumes (h : Primary gap R toks next e)
    (hc : c.current :: c.ahead = toks ++ after) (hnext : after.headD c.eof = next) :
    Consumes quiet (primary sub) c e after := by
  refine consumes_current ?_
  cases h with
  | number hk hd =>
    obtain ⟨rfl, hahead⟩ := List.cons.inj hc
    rcases hk with hk | hk <;> rw [hk] <;> exact number_consumes hd hahead
  | ident hn =>
    obtain ⟨ht, hahead⟩ := List.cons.inj hc
    rw [ht, hn.kind]
    exact (ident_consumes ht hn hahead).bind fun c' hahead' _ => consumes_pure hahead'
  | string hk =>
    obtain ⟨rfl, hahead⟩ := List.cons.inj hc
    rw [hk]
    exact consumes_pure hahead
  | @boolean _ _ value hk =>
    obtain ⟨rfl, hahead⟩ := List.cons.inj hc
    rw [hk]
    cases value <;> exact consumes_pure hahead
  | date hk hd =>
    obtain ⟨rfl, hahead⟩ := List.cons.inj hc
    rw [hk]
    exact date_consumes hd hahead
  | time hk hd =>
    obtain ⟨rfl, hahead⟩ := List.cons.inj hc
    rw [hk]
    exact time_consumes hd hahead
  | @unary _ _ op _ _ hk ho =>
    obtain ⟨rfl, hahead⟩ := List.cons.inj hc
    rw [hk]
    cases op <;> exact unary_consumes hs rfl ho hahead hnext
  | unit hl hr =>
    obtain ⟨rfl, hahead⟩ := List.cons.inj hc
    rw [hl]
    refine consumes_current (consumes_peek ?_)
    rw [Cursor.peek_of_ahead hahead, if_pos hr]
    exact consumes_advance (consumes_pure (Cursor.advance_ahead_of_ahead hahead))
  | paren hl hb hr =>
    simp only [List.cons_append, List.append_assoc, List.nil_append] at hc
    obtain ⟨rfl, hahead⟩ := List.cons.inj hc
    rw [hl]
    exact paren_consumes hs hb hr rfl hahead
  | macroUnit hd hn hl hr hclosing =>
    obtain ⟨rfl, hahead⟩ := List.cons.inj hc
    rw [hd]
    exact macroCall_consumes hs rfl hn hl (.inl ⟨rfl, rfl⟩) hr hclosing hahead
  | macroCall hd hn hl hargs hr hclosing =>
    simp only [List.cons_append, List.append_assoc, List.nil_append] at hc
    obtain ⟨rfl, hahead⟩ := List.cons.inj hc
    rw [hd]
    exact macroCall_consumes hs rfl hn hl (.inr hargs) hr hclosing hahead
  | callUnit hk hl hr =>
    obtain ⟨rfl, hahead⟩ := List.cons.inj hc
    rw [hk]
    exact call_consumes hs hgap rfl hl (.inl ⟨rfl, rfl⟩) hr hahead
  | call hk hl hopen hargs hr =>
    simp only [List.cons_append, List.append_assoc, List.nil_append] at hc
    obtain ⟨rfl, hahead⟩ := List.cons.inj hc
    rw [hk]
    exact call_consumes hs hgap rfl hl (.inr ⟨hopen, hargs⟩) hr hahead
  | overClause hk hcontext halias =>
    obtain ⟨rfl, hahead⟩ := List.cons.inj hc
    rw [hk]
    exact overClause_consumes hs rfl hcontext halias hahead hnext
  | overAlias hk hcontext ha hn =>
    simp only [List.cons_append, List.append_assoc, List.nil_append] at hc
    obtain ⟨rfl, hahead⟩ := List.cons.inj hc
    rw [hk]
    exact overAlias_consumes hs rfl hcontext ha hn hahead
  | filter hk hcondition =>
    obtain ⟨rfl, hahead⟩ := List.cons.inj hc
    rw [hk]
    exact filter_consumes hs rfl hcondition hahead hnext
  | orderBy hk hword hkey hasc hdesc =>
    obtain ⟨rfl, hahead⟩ := List.cons.inj hc
    rw [hk]
    exact orderBy_consumes hs rfl hword hkey hasc hdesc hahead hnext
  | orderByDirection hk hword hkey hd =>
    simp only [List.cons_append, List.append_assoc, List.nil_append] at hc
    obtain ⟨rfl, hahead⟩ := List.cons.inj hc
    rw [hk]
    exact orderByDirection_consumes hs rfl hword hkey hd hahead
  | label hclause | set hclause =>
    obtain ⟨n, rfl, hk⟩ := clause_head hclause
    have ht := (List.cons.inj hc).1
    rw [ht, hk]
    exact (clause_consumes hclause hc).bind fun c' hc' _ => consumes_pure hc'
  | list hl =>
    have ht := list_head hl hc
    rw [ht]
    exact (list_consumes hl hc).bind fun c' hc' _ => consumes_pure hc'

omit hs hgap in
theorem operation_head {power : Precedence} {left : Expr} (h : Operation R power left toks next e) :
    ∃ t ts, toks = t :: ts ∧ power < .of t.kind := by
  cases h with
  | binary hk hpower _ | memberList hk hpower _ | memberSet hk hpower _ =>
    exact ⟨_, _, rfl, by rw [hk]; exact hpower⟩

omit hgap in
theorem operator_consumes {power : Precedence} {left : Expr}
    (h : Operation R power left toks next e)
    (hc : c.current :: c.ahead = toks ++ after) (hnext : after.headD c.eof = next) :
    Consumes quiet (operator sub left) c e after := by
  refine consumes_current ?_
  cases h with
  | @binary _ _ op _ _ hk _ hright =>
    obtain ⟨rfl, hahead⟩ := List.cons.inj hc
    rw [hk]
    simp only [BinaryOp.ofMark?_eq_some_iff.mpr rfl]
    refine consumes_advance ((hs.ahead hright hahead hnext).bind ?_)
    exact fun c' hahead' _ => consumes_pure hahead'
  | @memberList _ _ toks _ hk _ hl =>
    obtain ⟨rfl, hahead⟩ := List.cons.inj hc
    rw [hk]
    refine consumes_current (consumes_peek ?_)
    have hl' : c.advance.current :: c.advance.ahead = toks ++ after := by
      cases hl with
      | intro _ _ _ => exact Cursor.advance_of_ahead hahead
    rw [show c.peek.kind = .mark .lbracket from list_head hl hl']
    refine consumes_advance ((list_consumes hl hl').bind ?_)
    exact fun c' hahead' _ => consumes_pure hahead'
  | memberSet hk _ hclause =>
    obtain ⟨n, rfl, hset⟩ := clause_head hclause
    obtain ⟨rfl, hahead⟩ := List.cons.inj hc
    rw [hk]
    refine consumes_current (consumes_peek ?_)
    rw [Cursor.peek_of_ahead hahead, hset]
    refine consumes_advance ((clause_consumes hclause (Cursor.advance_of_ahead hahead)).bind ?_)
    exact fun c' hahead' _ => consumes_pure hahead'

end Sub

section Levels

variable {gaps : Gaps}

/-- Where no operator binds tighter, the left operand is the whole expression. -/
theorem stop_consumes {levels : Nat} {power : Precedence} {left e : Expr} {toks after : List Token}
    {next : Token} {c : Cursor} (h : Stop power left toks next e) (hc : c.ahead = toks ++ after)
    (hnext : after.headD c.eof = next) : Consumes quiet (chain levels power left) c e after := by
  cases h with
  | intro hpower =>
    have hpeek : ¬ power < .of c.peek.kind := by
      rw [c.peek_eq_headD, hc]
      exact hnext.symm ▸ hpower
    cases levels with
    | zero | succ levels =>
      rw [chain]
      refine consumes_peek ?_
      rw [if_neg hpeek]
      exact consumes_pure hc

/-- Going on after a left operand, if reading expressions one level deeper is complete and so is
going on from there. -/
theorem chain_succ_consumes {levels : Nat}
    (hs : SubComplete quiet (expression levels) (Expression gaps levels))
    (ih : ∀ {power left toks next e}, Chain gaps levels power left toks next e →
      ∀ {c : Cursor} {after}, c.ahead = toks ++ after → after.headD c.eof = next →
        Consumes quiet (chain levels power left) c e after)
    {power : Precedence} {left e : Expr} {toks after : List Token} {next : Token} {c : Cursor}
    (h : Chain gaps (levels + 1) power left toks next e) (hc : c.ahead = toks ++ after)
    (hnext : after.headD c.eof = next) :
    Consumes quiet (chain (levels + 1) power left) c e after := by
  rcases h with hstop | hgo
  · exact stop_consumes hstop hc hnext
  · rw [chain]
    refine consumes_peek ?_
    cases hgo with
    | @intro front back _ left' _ hop hchain =>
      rw [List.append_assoc] at hc
      obtain ⟨t, ts, rfl, hpower⟩ := operation_head hop
      rw [if_pos (by rwa [Cursor.peek_of_ahead hc])]
      refine consumes_advance ((operator_consumes hs hop (Cursor.advance_of_ahead hc) ?_).bind ?_)
      · rw [← hnext]
        cases back <;> rfl
      · exact fun c' hc' he' => ih hchain hc' (he' ▸ hnext)

variable (hgaps : ∀ levels, Skips quiet (expression levels) (gaps levels))
include hgaps

theorem subComplete_and_chain (levels : Nat) :
    SubComplete quiet (expression levels) (Expression gaps levels) ∧
      ∀ {power left toks next e}, Chain gaps levels power left toks next e →
        ∀ {c : Cursor} {after}, c.ahead = toks ++ after → after.headD c.eof = next →
          Consumes quiet (chain levels power left) c e after := by
  induction levels with
  | zero =>
    exact ⟨⟨fun h => h.elim, expression_starts⟩, fun h c after hc hnext => stop_consumes h hc hnext⟩
  | succ levels ih =>
    refine ⟨⟨fun h c after hc hnext => ?_, expression_starts⟩,
      fun h c after hc hnext => chain_succ_consumes ih.1 ih.2 h hc hnext⟩
    cases h with
    | @intro front back _ left _ hprimary hchain =>
      rw [List.append_assoc] at hc
      rw [expression]
      refine (primary_consumes ih.1 (hgaps levels) hprimary hc ?_).bind ?_
      · rw [← hnext]
        cases back <;> rfl
      · exact fun c' hc' he' => ih.2 hchain hc' (he' ▸ hnext)

/-- Every expression is read. -/
theorem expression_complete (levels : Nat) :
    SubComplete quiet (expression levels) (Expression gaps levels) :=
  (subComplete_and_chain hgaps levels).1

end Levels

/-- Arguments in the strict grammar start like expressions or bindings. -/
theorem arguments_strict {levels : Nat} {R : SubPhrase} {toks : List Token} {r : Token}
    {args : List Expr} (hstarts : SubStarts R)
    (h : Items (Argument (Gaps.none levels) R) toks r args) :
    (toks.headD r).kind ≠ .mark .rparen := by
  have hfirst {toks : List Token} {stop : Token} {a : Expr}
      (ha : Argument (Gaps.none levels) R toks stop a) (rest : List Token) :
      ((toks ++ rest).headD r).kind ≠ .mark .rparen := by
    have hstart : ∃ t ts, toks = t :: ts ∧ (t.kind.starts ∨ t.kind = .keyword .varWord) := by
      cases ha with
      | value hv =>
        obtain ⟨t, ts, rfl, ht⟩ := hstarts hv
        exact ⟨t, ts, rfl, .inl ht⟩
      | block hb _ => exact blocks_starts hstarts hb
      | failed hpassed _ => exact hpassed.elim
    obtain ⟨t, ts, rfl, ht⟩ := hstart
    intro hk
    rw [show t.kind = .mark .rparen from hk] at ht
    rcases ht with ht | ht <;> cases ht
  cases h with
  | last ha => exact List.append_nil toks ▸ hfirst ha []
  | cons ha _ _ => exact hfirst ha _

/-- In the strict grammar there is nothing to skip. -/
theorem skips_none (levels : Nat) : Skips True (expression levels) (Gaps.none levels) :=
  ⟨fun h => h.elim, fun h => h.elim⟩

end Grammar

end PayFormula
