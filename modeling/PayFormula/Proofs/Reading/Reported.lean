import Mathlib.Data.List.Infix
import PayFormula.Proofs.Reading.Abreast
import PayFormula.Proofs.Token.Order

/-!
# Errors in the order of the text

A reader that fails blames the token under the cursor, or the next one if it has
read that token already. So what it blames stands behind the tokens of all errors
recorded before. Only the recovery of an argument moves the cursor back. Where
each bracket is closed by its own mark, reading an argument does not get over the
`,` or `)` from which recovery goes on, so that no token is read again behind it.
-/
namespace PayFormula

/-- Whatever is left of the tokens, each bracket in it that is closed is closed by its own mark. -/
def Paired (tokens : List Token) : Prop := ∀ rest ∈ tokens.tails, nests [] rest

instance (tokens : List Token) : Decidable (Paired tokens) :=
  inferInstanceAs (Decidable (∀ rest ∈ tokens.tails, nests [] rest = true))

theorem Paired.suffix {tokens rest : List Token} (h : Paired tokens) (hs : rest <:+ tokens) :
    Paired rest := fun later hl =>
  h later ((List.mem_tails _ _).mpr (((List.mem_tails _ _).mp hl).trans hs))

theorem Paired.nests {tokens : List Token} (h : Paired tokens) : PayFormula.nests [] tokens :=
  h tokens ((List.mem_tails _ _).mpr (List.suffix_refl _))

theorem TokenKind.owedAfter?_of_isComment {kind : TokenKind} (h : kind.isComment)
    (owed : List Mark) : kind.owedAfter? owed = some owed := by
  cases kind <;> first | rfl | cases h

theorem nests_filter (owed : List Mark) (tokens : List Token) :
    nests owed (tokens.filter (!·.kind.isComment)) = nests owed tokens := by
  induction tokens generalizing owed with
  | nil => rfl
  | cons t tokens ih =>
    cases hk : t.kind.isComment with
    | true =>
      rw [List.filter_cons_of_neg (by simp [hk]), ih, nests, TokenKind.owedAfter?_of_isComment hk]
    | false =>
      rw [List.filter_cons_of_pos (by simp [hk]), nests, nests]
      split
      · exact ih _
      · rfl

theorem nests_left {owed : List Mark} {front back : List Token} (h : nests owed (front ++ back)) :
    nests owed front := by
  induction front generalizing owed with
  | nil => rfl
  | cons t front ih =>
    rw [List.cons_append, nests] at h
    rw [nests]
    split
    · rename_i howed
      rw [howed] at h
      exact ih h
    · rename_i howed
      rwa [howed] at h

/-- Neither a comment nor what ends a statement or the text. -/
def TokenKind.isInner : TokenKind → Bool
  | .eof | .lineComment | .blockComment | .mark .semicolon => false
  | _ => true

theorem TokenKind.isSolid_of_isInner {kind : TokenKind} (h : kind.isInner) : kind.isSolid := by
  cases kind <;> first | rfl | cases h

theorem TokenKind.ne_semicolon_of_isInner {kind : TokenKind} (h : kind.isInner) :
    kind ≠ .mark .semicolon := by
  rintro rfl
  cases h

theorem Cursor.peek_mem (c : Cursor) : c.peek ∈ c.rest.tail ++ [c.eof] := by
  rw [peek]
  cases hf : c.following with
  | nil => simp
  | cons t rest =>
    have ht : t ∈ c.rest.tail := c.following_suffix_tail.subset (hf ▸ List.mem_cons_self)
    simp [ht]

namespace Read

/-- The tokens left are in the order of the text, and so are those blamed so far. -/
structure Tracked (c : Cursor) : Prop where
  eof : c.eof.kind = .eof
  paired : Paired c.rest
  ordered : (c.rest ++ [c.eof]).Pairwise (·.start < ·.start)
  errors : c.errors.Pairwise (·.token.start < ·.token.start)

/-- The token under the cursor is to be read, and nothing is blamed from there on. -/
structure Fresh (c : Cursor) : Prop extends Tracked c where
  not_isComment : c.current.kind.isComment = false
  errors_lt : ∀ e ∈ c.errors, e.token.start < c.current.start

/-- The token under the cursor has been read, and nothing is blamed behind it. -/
structure Spent (c : Cursor) : Prop extends Tracked c where
  isInner : c.current.kind.isInner
  errors_le : ∀ e ∈ c.errors, e.token.start ≤ c.current.start

/-- The error blames the first token that has not been read. -/
def Stuck (e : SyntaxError) (c : Cursor) : Prop :=
  Fresh c ∧ e.token = c.current ∨ Spent c ∧ e.token = c.peek

variable {α β : Type} {c c' : Cursor}

namespace Tracked

variable (h : Tracked c)
include h

theorem current_lt (hne : c.rest ≠ []) {t : Token} (ht : t ∈ c.rest.tail ++ [c.eof]) :
    c.current.start < t.start := by
  obtain ⟨u, rest, hrest⟩ := List.exists_cons_of_ne_nil hne
  have hordered := h.ordered
  rw [hrest] at ht hordered
  rw [Cursor.current, hrest]
  exact List.rel_of_pairwise_cons hordered ht

theorem rest {tokens : List Token} (hs : tokens <:+ c.rest) :
    Tracked { c with rest := tokens } := by
  refine ⟨h.eof, h.paired.suffix hs, h.ordered.sublist ?_, h.errors⟩
  exact hs.sublist.append (List.Sublist.refl _)

theorem advance : Tracked c.advance := h.rest c.following_suffix

/-- The error can be recorded if it blames a token behind all that are blamed. -/
theorem record {e : SyntaxError} (he : ∀ e' ∈ c.errors, e'.token.start < e.token.start) :
    Tracked (c.record e) := by
  refine ⟨h.eof, h.paired, h.ordered, List.pairwise_append.mpr ⟨h.errors, ?_, ?_⟩⟩
  · exact List.pairwise_singleton _ _
  · intro e' he' e₁ he₁
    rw [List.mem_singleton.mp he₁]
    exact he e' he'

end Tracked

theorem Fresh.spent (h : Fresh c) (hk : c.current.kind.isInner) : Spent c :=
  ⟨h.toTracked, hk, fun e he => (h.errors_lt e he).le⟩

/-- A `;` is read only in front of what is fresh. -/
theorem Fresh.advance (h : Fresh c) (hk : c.current.kind.isSolid) : Fresh c.advance := by
  refine ⟨h.toTracked.advance, c.peek_not_isComment h.eof, fun e he => ?_⟩
  have hne := Cursor.rest_ne_nil_of_isSolid h.eof hk
  exact (h.errors_lt e he).trans (h.current_lt hne c.peek_mem)

namespace Spent

variable (h : Spent c)
include h

theorem rest_ne_nil : c.rest ≠ [] :=
  Cursor.rest_ne_nil_of_isSolid h.eof (TokenKind.isSolid_of_isInner h.isInner)

theorem advance : Fresh c.advance :=
  ⟨h.toTracked.advance, c.peek_not_isComment h.eof, fun e he =>
    (h.errors_le e he).trans_lt (h.current_lt h.rest_ne_nil c.peek_mem)⟩

theorem next (hk : c.peek.kind.isInner) : Spent c.advance := h.advance.spent hk

end Spent

/-- An error blames a token behind all that are blamed before. -/
theorem Stuck.record {e : SyntaxError} (h : Stuck e c) : Tracked (c.record e) := by
  rcases h with ⟨hfresh, ht⟩ | ⟨hspent, ht⟩
  · refine hfresh.toTracked.record fun e' he' => ?_
    rw [ht]
    exact hfresh.errors_lt e' he'
  · refine hspent.toTracked.record fun e' he' => ?_
    rw [ht]
    exact hspent.advance.errors_lt e' he'

/-- A run ends in a state of the given kind, or fails at the first token that has not been read. -/
inductive Keeps (Q : α → Cursor → Prop) : Except SyntaxError α × Cursor → Prop
  | ok {a : α} {c : Cursor} : Q a c → Keeps Q (.ok a, c)
  | error {e : SyntaxError} {c : Cursor} : Stuck e c → Keeps Q (.error e, c)

namespace Keeps

variable {P : α → Cursor → Prop} {Q : β → Cursor → Prop}

theorem of_yields {x : Read α} {a : α} (h : Keeps P (x c)) (hy : Yields x c a c') : P a c' := by
  rw [hy] at h
  cases h with
  | ok hP => exact hP

theorem of_fails {x : Read α} {e : SyntaxError} (h : Keeps P (x c)) (hf : Fails x c e c') :
    Stuck e c' := by
  rw [hf] at h
  cases h with
  | error hstuck => exact hstuck

theorem bind {x : Read α} {f : α → Read β} (h : Keeps P (x c))
    (hf : ∀ a c', P a c' → Keeps Q (f a c')) : Keeps Q ((x >>= f) c) := by
  rw [bind_run]
  generalize x c = run at h
  cases h with
  | ok hP => exact hf _ _ hP
  | error hstuck => exact .error hstuck

theorem pure {b : β} (h : Q b c) : Keeps Q ((Pure.pure b : Read β) c) := .ok h

theorem fail_current {cause : SyntaxError.Cause} (h : Fresh c) :
    Keeps Q ((Read.fail cause c.current : Read β) c) := .error (.inl ⟨h, rfl⟩)

theorem fail_peek {cause : SyntaxError.Cause} (h : Spent c) :
    Keeps Q ((Read.fail cause c.peek : Read β) c) := .error (.inr ⟨h, rfl⟩)

theorem current {f : Token → Read β} (h : Keeps Q (f c.current c)) :
    Keeps Q ((Read.current >>= f) c) := h

theorem peek {f : Token → Read β} (h : Keeps Q (f c.peek c)) : Keeps Q ((Read.peek >>= f) c) := h

theorem advance {f : Unit → Read β} (h : Keeps Q (f () c.advance)) :
    Keeps Q ((Read.advance >>= f) c) := h

theorem remaining {f : Nat → Read β} (h : Keeps Q (f c.rest.length c)) :
    Keeps Q ((Read.remaining >>= f) c) := h

theorem ite {p : Prop} [Decidable p] {x y : Read β} (hx : p → Keeps Q (x c))
    (hy : ¬ p → Keeps Q (y c)) : Keeps Q ((if p then x else y) c) := by
  split
  · exact hx ‹p›
  · exact hy ‹¬ p›

end Keeps

/-- A run of the reader spends the token on which it ends, or fails at the first one that has not
been read. -/
abbrev Spends (x : Read α) (c : Cursor) : Prop := Keeps (fun _ => Spent) (x c)

theorem number_spends (h : Fresh c) (hk : c.current.kind.isInner) :
    Spends (number c.current) c := by
  unfold number
  split
  · exact .pure (h.spent hk)
  · exact .fail_current h

theorem date_spends (h : Fresh c) (hk : c.current.kind.isInner) : Spends (date c.current) c := by
  unfold date
  split
  · exact .pure (h.spent hk)
  · exact .fail_current h

theorem time_spends (h : Fresh c) (hk : c.current.kind.isInner) : Spends (time c.current) c := by
  unfold time
  split
  · exact .pure (h.spent hk)
  · exact .fail_current h

theorem ident_spends (h : Fresh c) (hk : c.current.kind.isInner) : Spends ident c :=
  .current (.ite (fun _ => .fail_current h) fun _ => .ite (fun _ => .fail_current h) fun _ =>
    .pure (h.spent hk))

theorem expect_spends {kind : TokenKind} (h : Spent c) (hk : kind.isInner) :
    Spends (expect kind) c := by
  refine .peek (.ite (fun hpeek => ?_) fun _ => .fail_peek h)
  exact .advance (.pure (h.next (hpeek ▸ hk)))

theorem expectClosing_spends {opening closing : Mark} (h : Spent c)
    (hk : (TokenKind.mark closing).isInner) : Spends (expectClosing opening closing) c := by
  refine .peek (.ite (fun hpeek => ?_) fun _ => .fail_peek h)
  exact .advance (.pure (h.next (hpeek ▸ hk)))

theorem expectName_spends (h : Spent c) : Spends expectName c := by
  refine .peek ?_
  change Spends _ c
  split
  · rename_i hk
    exact .advance (ident_spends h.advance (by rw [Cursor.advance_current, hk]; rfl))
  · exact .fail_peek h
  · exact .fail_peek h
  · exact .ite (fun _ => .fail_peek h) fun _ => .fail_peek h
  · exact .fail_peek h

theorem nameClause_spends (h : Spent c) : Spends nameClause c :=
  .current ((expectName_spends h).bind fun _ _ hname => .pure hname)

theorem strings_spends {n : Nat} (h : Spent c) : Spends (strings n) c := by
  induction n generalizing c with
  | zero => exact .pure h
  | succ n ih =>
    refine .peek (.ite (fun hs => ?_) fun _ => .pure h)
    have h₁ := h.next (by rw [hs]; rfl)
    refine .advance (.peek (.ite (fun hcomma => ?_) fun _ => .pure h₁))
    exact .advance ((ih (h₁.next (by rw [hcomma]; rfl))).bind fun _ _ hlast => .pure hlast)

theorem list_spends (h : Spent c) : Spends list c := by
  refine .current (.peek (.ite (fun _ => ?_) fun _ => .fail_peek h))
  refine .remaining ((strings_spends h).bind fun _ _ hstrings => ?_)
  exact (expectClosing_spends hstrings rfl).bind fun _ _ hr => .pure hr

section Sub

/-- Readers of expressions that blame tokens in the order of the text. -/
structure SubSpends (sub : SubReader) : Prop where
  reaches : ∀ Same : Token → Token → Prop, SubReaches Same sub
  spends : ∀ {power c}, Fresh c → Spends (sub power) c

variable {sub : SubReader} (hs : SubSpends sub)
include hs

/-- A binding is read up to its semicolon. -/
theorem binding_keeps (h : Spent c) :
    Keeps (fun _ d => Fresh d ∧ d.current.kind = .mark .semicolon) (binding sub c) := by
  refine .current ((expectName_spends h).bind fun _ _ hname => ?_)
  refine (expect_spends hname rfl).bind fun _ _ heq => ?_
  refine .advance ((hs.spends heq.advance).bind fun _ d hvalue => ?_)
  refine .peek (.ite (fun hsemi => ?_) fun _ => .fail_peek hvalue)
  exact .advance (.pure ⟨hvalue.advance, hsemi⟩)

theorem bindings_keeps {n : Nat} (h : Fresh c) : Keeps (fun _ => Fresh) (bindings sub n c) := by
  induction n generalizing c with
  | zero => exact .pure h
  | succ n ih =>
    refine .current (.ite (fun hk => ?_) fun _ => .pure h)
    refine (binding_keeps hs (h.spent (by rw [hk]; rfl))).bind fun _ d hd => .advance ?_
    exact (ih (hd.1.advance (by rw [hd.2]; rfl))).bind fun _ _ hlast => .pure hlast

theorem block_spends (h : Fresh c) : Spends (block sub) c :=
  .remaining ((bindings_keeps hs h).bind fun _ _ hbs =>
    (hs.spends hbs).bind fun _ _ hvalue => .pure hvalue)

theorem paren_spends (h : Spent c) : Spends (paren sub) c := by
  refine .current (.peek (.ite (fun hr => .advance (.pure (h.next (by rw [hr]; rfl)))) fun _ => ?_))
  refine .advance ((block_spends hs h.advance).bind fun _ _ hblock => ?_)
  exact (expectClosing_spends hblock rfl).bind fun _ _ hr => .pure hr

theorem macroArgs_spends {n : Nat} (h : Spent c) : Spends (macroArgs sub n) c := by
  induction n generalizing c with
  | zero => exact .pure h
  | succ n ih =>
    refine .advance ((hs.spends h.advance).bind fun _ _ harg => ?_)
    refine .peek (.ite (fun hcomma => ?_) fun _ => .pure harg)
    exact .advance ((ih (harg.next (by rw [hcomma]; rfl))).bind fun _ _ hlast => .pure hlast)

theorem macroCall_spends (h : Spent c) : Spends (macroCall sub) c := by
  have hclose {d : Cursor} {f : Token → Token → Expr} (h : Spent d) :
      Spends (expectClosing .lparen .rparen >>= fun r =>
        expectClosing .dollar .dollar >>= fun closing => pure (f r closing)) d :=
    (expectClosing_spends h rfl).bind fun _ _ hr =>
      (expectClosing_spends hr rfl).bind fun _ _ hd => .pure hd
  refine .current ((expectName_spends h).bind fun _ _ hname => ?_)
  refine (expect_spends hname rfl).bind fun _ _ hl => .peek (.ite (fun _ => ?_) fun _ => ?_)
  · exact (Keeps.pure (Q := fun _ => Spent) (b := []) hl).bind fun _ _ h => hclose h
  · exact .remaining ((macroArgs_spends hs hl).bind fun _ _ h => hclose h)

theorem argument_keeps (h : Fresh c) :
    Keeps (fun _ d => Spent d ∧ (d.peek.kind = .mark .comma ∨ d.peek.kind = .mark .rparen))
      (argument sub c) :=
  (block_spends hs h).bind fun _ _ hblock =>
    .peek (.ite (fun hstop => .pure ⟨hblock, hstop⟩) fun _ => .fail_peek hblock)

/-- An argument that fails blames no token behind the `,` or `)` at which reading goes on. -/
theorem argument_fails_le (h : Fresh c) {e : SyntaxError} (hf : Fails (argument sub) c e c')
    {skipped after : List Token} {stop : Token}
    (hstop : splitAtStop? [.mark .comma, .mark .rparen] 0 c.rest = some (skipped, stop :: after)) :
    e.token.start ≤ stop.start := by
  have hrest := splitAtStop?_eq_append hstop
  have hne : c.rest ≠ [] := by simp [hrest]
  have hahead := (split_ahead_iff hne h.not_isComment).mpr ⟨skipped, after, hstop, rfl, rfl⟩
  have hnests : nests [] (skipped.filter (!·.kind.isComment)) := by
    rw [nests_filter]
    exact nests_left (hrest ▸ h.paired.nests)
  -- all tokens in front of the stop are no further on
  have hlt : ∀ t ∈ skipped, t.start < stop.start := by
    have hordered := h.ordered
    rw [hrest, List.append_assoc] at hordered
    exact fun t ht => (List.pairwise_append.mp hordered).2.2 t ht stop (by simp)
  have habreast : Abreast (fun t _ => t.start ≤ stop.start) [] (c.current :: c.ahead)
      (c.current :: c.ahead) := by
    have htokens := splitAtStop?_eq_append hahead
    rw [htokens] at hahead ⊢
    refine .of_nests hnests hahead (List.forall₂_same.mpr fun t ht => ?_) rfl le_rfl
    obtain ⟨hmem, hcomment⟩ := List.mem_filter.mp ht
    exact ⟨by simpa using hcomment, rfl, (hlt t hmem).le⟩
  obtain ⟨_, _, -, -, hsame⟩ :=
    (argument_parallel (hs.reaches _) ⟨hne, hne, habreast⟩).fails hf
  exact hsame

/-- An argument is left at the `,` or `)` that ends it, with all errors up to there. -/
theorem argumentOrPlaceholder_keeps (h : Fresh c) :
    Keeps (fun _ d => Spent d ∧ (d.current.kind = .mark .comma ∨ d.current.kind = .mark .rparen))
      (argumentOrPlaceholder sub c) := by
  have hsteady := argument_steady (hs.reaches Eq).steady
  rcases yields_or_fails (argumentOrPlaceholder sub) c with ⟨a, d, hy⟩ | ⟨e, d, hf⟩
  · rw [hy]
    refine .ok ?_
    rcases argumentOrPlaceholder_yields_iff.mp hy with ⟨c₁, ha, rfl⟩ | ⟨e, c₁, hfails, hr⟩
    · obtain ⟨hspent, hstop⟩ := (argument_keeps hs h).of_yields ha
      refine ⟨hspent.next ?_, hstop⟩
      rcases hstop with hk | hk <;> rw [hk] <;> rfl
    · have hp := hsteady.of_fails hfails
      have htracked := ((argument_keeps hs h).of_fails hfails).record
      obtain ⟨skipped, rest, hsplit, -, rfl⟩ := recover_yields_iff.mp hr
      obtain ⟨stop, after, rfl, hkind⟩ := splitAtStop?_stop hsplit
      have hle := argument_fails_le hs h hfails hsplit
      have hrest := splitAtStop?_eq_append hsplit
      have hordered := h.ordered
      rw [hrest, List.append_assoc] at hordered
      have hcurrent : stop.kind = .mark .comma ∨ stop.kind = .mark .rparen := by simpa using hkind
      refine ⟨⟨⟨htracked.eof, h.paired.suffix ⟨skipped, hrest.symm⟩, ?_, htracked.errors⟩, ?_, ?_⟩,
        hcurrent⟩
      · change ((stop :: after) ++ [c₁.eof]).Pairwise _
        rw [hp.eof]
        exact (List.pairwise_append.mp hordered).2.1
      · change stop.kind.isInner
        rcases hcurrent with hk | hk <;> rw [hk] <;> rfl
      · intro e' he'
        rcases List.mem_append.mp he' with he' | he'
        · obtain ⟨-, -, hlt⟩ := List.pairwise_append.mp htracked.errors
          exact (hlt e' he' e (List.mem_singleton_self e)).le.trans hle
        · rw [List.mem_singleton.mp he']
          exact hle
  · rw [hf]
    exact .error ((argument_keeps hs h).of_fails (argumentOrPlaceholder_fails_iff.mp hf).1)

theorem arguments_spends {n : Nat} (h : Spent c) : Spends (arguments sub n) c := by
  induction n generalizing c with
  | zero => exact .peek (.fail_peek h)
  | succ n ih =>
    refine .advance ((argumentOrPlaceholder_keeps hs h.advance).bind fun _ d hd => ?_)
    refine .current (.ite (fun _ => .pure hd.1) fun _ => ?_)
    exact (ih hd.1).bind fun _ _ hlast => .pure hlast

theorem call_spends (h : Spent c) : Spends (call sub) c := by
  refine .current ((expect_spends h rfl).bind fun _ _ hl => .peek (.ite (fun hr => ?_) fun _ => ?_))
  · exact .advance (.pure (hl.next (by rw [hr]; rfl)))
  · exact .remaining ((arguments_spends hs hl).bind fun _ _ hargs => .pure hargs)

theorem unary_spends (op : UnaryOp) (h : Spent c) : Spends (unary op sub) c :=
  .current (.advance ((hs.spends h.advance).bind fun _ _ hoperand => .pure hoperand))

theorem filter_spends (h : Spent c) : Spends (filter sub) c :=
  .current (.advance ((hs.spends h.advance).bind fun _ _ hcondition => .pure hcondition))

theorem overClause_spends (h : Spent c) : Spends (overClause sub) c := by
  refine .current (.advance ((hs.spends h.advance).bind fun _ _ hcontext => ?_))
  refine .peek (.ite (fun halias => ?_) fun _ => .pure hcontext)
  exact .advance ((nameClause_spends (hcontext.next (by rw [halias]; rfl))).bind fun _ _ hname =>
    .pure hname)

theorem orderBy_spends (h : Spent c) : Spends (orderBy sub) c := by
  refine .current ((expect_spends h rfl).bind fun _ _ hword => ?_)
  refine .advance ((hs.spends hword.advance).bind fun _ d hkey => .peek ?_)
  change Spends _ d
  split
  · rename_i hk
    exact .advance (.pure (hkey.next (by rw [hk]; rfl)))
  · rename_i hk
    exact .advance (.pure (hkey.next (by rw [hk]; rfl)))
  · exact .pure hkey

theorem primary_spends (h : Fresh c) : Spends (primary sub) c := by
  refine .current ?_
  change Spends _ c
  split
  · rename_i hk
    exact number_spends h (by rw [hk]; rfl)
  · rename_i hk
    exact number_spends h (by rw [hk]; rfl)
  · rename_i hk
    exact (ident_spends h (by rw [hk]; rfl)).bind fun _ _ hname => .pure hname
  · rename_i hk
    exact .pure (h.spent (by rw [hk]; rfl))
  · rename_i hk
    exact .pure (h.spent (by rw [hk]; rfl))
  · rename_i hk
    exact .pure (h.spent (by rw [hk]; rfl))
  · rename_i hk
    exact date_spends h (by rw [hk]; rfl)
  · rename_i hk
    exact time_spends h (by rw [hk]; rfl)
  · rename_i hk
    exact unary_spends hs _ (h.spent (by rw [hk]; rfl))
  · rename_i hk
    exact unary_spends hs _ (h.spent (by rw [hk]; rfl))
  · rename_i hk
    exact paren_spends hs (h.spent (by rw [hk]; rfl))
  · rename_i hk
    exact macroCall_spends hs (h.spent (by rw [hk]; rfl))
  · rename_i hk
    exact call_spends hs (h.spent (by rw [hk]; rfl))
  · rename_i hk
    exact overClause_spends hs (h.spent (by rw [hk]; rfl))
  · rename_i hk
    exact filter_spends hs (h.spent (by rw [hk]; rfl))
  · rename_i hk
    exact orderBy_spends hs (h.spent (by rw [hk]; rfl))
  · rename_i hk
    exact (nameClause_spends (h.spent (by rw [hk]; rfl))).bind fun _ _ hname => .pure hname
  · rename_i hk
    exact (nameClause_spends (h.spent (by rw [hk]; rfl))).bind fun _ _ hname => .pure hname
  · rename_i hk
    exact (list_spends (h.spent (by rw [hk]; rfl))).bind fun _ _ hlist => .pure hlist
  · exact .fail_current h

omit hs in
theorem member_spends (left : Expr) (h : Spent c) : Spends (member left) c := by
  refine .current (.peek ?_)
  change Spends _ c
  split
  · rename_i hk
    exact .advance ((list_spends (h.next (by rw [hk]; rfl))).bind fun _ _ hlist => .pure hlist)
  · rename_i hk
    have hnext := h.next (by rw [hk]; rfl)
    exact .advance ((nameClause_spends hnext).bind fun _ _ hname => .pure hname)
  · exact .fail_peek h

theorem operator_spends (left : Expr) (h : Fresh c) : Spends (operator sub left) c := by
  refine .current ?_
  change Spends _ c
  split
  · rename_i hk
    exact member_spends left (h.spent (by rw [hk]; rfl))
  · rename_i m hk
    cases hop : BinaryOp.ofMark? m with
    | none => exact .fail_current h
    | some op =>
      obtain rfl := BinaryOp.ofMark?_eq_some_iff.mp hop
      have hspent := h.spent (by rw [hk]; cases op <;> rfl)
      exact .advance ((hs.spends hspent.advance).bind fun _ _ hright => .pure hright)
  · exact .fail_current h

end Sub

theorem subSpends_and_chain (levels : Nat) :
    SubSpends (expression levels) ∧
      ∀ {power left c}, Spent c → Spends (chain levels power left) c := by
  induction levels with
  | zero =>
    refine ⟨⟨fun _ => expression_reaches 0, fun h => ?_⟩, fun h => ?_⟩
    · rw [expression]
      exact .current (.fail_current h)
    · rw [chain]
      refine .peek (.ite (fun _ => ?_) fun _ => .pure h)
      exact .advance (.current (.fail_current h.advance))
  | succ levels ih =>
    refine ⟨⟨fun _ => expression_reaches _, fun h => ?_⟩, fun {_ left _} h => ?_⟩
    · rw [expression]
      exact (primary_spends ih.1 h).bind fun _ _ hleft => ih.2 hleft
    · rw [chain]
      refine .peek (.ite (fun _ => .advance ?_) fun _ => .pure h)
      exact (operator_spends ih.1 left h.advance).bind fun _ _ hleft => ih.2 hleft

/-- Readers of expressions blame tokens in the order of the text. -/
theorem expression_spends (levels : Nat) : SubSpends (expression levels) :=
  (subSpends_and_chain levels).1

/-! ### Statement by statement -/

/-- All that is blamed stands in front of all that is left. -/
structure Awaiting (c : Cursor) : Prop extends Tracked c where
  errors_lt : ∀ e ∈ c.errors, ∀ t ∈ c.rest, e.token.start < t.start

namespace Awaiting

theorem fresh (h : Awaiting c) (hne : c.rest ≠ []) (hk : c.current.kind.isComment = false) :
    Fresh c := by
  refine ⟨h.toTracked, hk, fun e he => h.errors_lt e he _ ?_⟩
  obtain ⟨t, rest, hrest⟩ := List.exists_cons_of_ne_nil hne
  simp [Cursor.current, hrest]

theorem suffix {tokens : List Token} (h : Awaiting c) (hs : tokens <:+ c.rest) :
    Awaiting { c with rest := tokens } :=
  ⟨h.rest hs, fun e he t ht => h.errors_lt e he t (hs.subset ht)⟩

end Awaiting

/-- Behind a token that is read, nothing has been blamed. -/
theorem Tracked.step (h : Tracked c) (hle : ∀ e ∈ c.errors, e.token.start ≤ c.current.start) :
    Awaiting c.step := by
  refine ⟨h.rest (List.tail_suffix _), fun e he t ht => (hle e he).trans_lt ?_⟩
  refine h.current_lt (fun hnil => ?_) (List.mem_append_left _ ht)
  rw [Cursor.step, hnil] at ht
  cases ht

theorem nextToken_mem {stop : Token} (hk : stop.kind.isComment = false) (eof : Token)
    (front after : List Token) : nextToken eof (front ++ stop :: after) ∈ front ++ [stop] := by
  induction front with
  | nil => simp [nextToken, hk]
  | cons t front ih =>
    cases ht : t.kind.isComment with
    | true =>
      have hskip : nextToken eof (t :: front ++ stop :: after) =
          nextToken eof (front ++ stop :: after) := by
        simp [nextToken, ht]
      rw [hskip]
      exact List.mem_cons_of_mem _ ih
    | false => simp [nextToken, ht]

/-- Behind the `;` at which reading goes on nothing has been blamed: the token that is blamed is the
`;` itself or in front of it. -/
theorem Stuck.synchronize {e : SyntaxError} (h : Stuck e c) :
    Awaiting (c.record e).synchronize := by
  have htracked := h.record
  have hlast : ∀ e' ∈ c.errors ++ [e], e'.token.start ≤ e.token.start := by
    intro e' he'
    rcases List.mem_append.mp he' with he' | he'
    · exact ((List.pairwise_append.mp htracked.errors).2.2 e' he' e (List.mem_singleton_self e)).le
    · rw [List.mem_singleton.mp he']
  unfold Cursor.synchronize
  split
  · rename_i skipped stop hsplit
    change splitAtStop? [.mark .semicolon] 0 c.rest = _ at hsplit
    obtain ⟨semicolon, after, rfl, hk⟩ := splitAtStop?_stop hsplit
    have hsemi : semicolon.kind = .mark .semicolon := List.mem_singleton.mp hk
    have hrest := splitAtStop?_eq_append hsplit
    have hsuffix : after <:+ c.rest := ⟨skipped ++ [semicolon], by simp [hrest]⟩
    refine ⟨htracked.rest hsuffix, fun e' he' t ht => (hlast e' he').trans_lt ?_⟩
    have hordered := htracked.ordered
    change (c.rest ++ [c.eof]).Pairwise _ at hordered
    rw [hrest, List.append_assoc, List.cons_append] at hordered
    -- whatever is in front of the stop, or the stop itself, is in front of what follows
    have hfront : ∀ u ∈ skipped ++ [semicolon], u.start < t.start := by
      have hback : t ∈ after ++ [c.eof] := List.mem_append_left _ ht
      intro u hu
      rcases List.mem_append.mp hu with hu | hu
      · exact (List.pairwise_append.mp hordered).2.2 u hu t (List.mem_cons_of_mem _ hback)
      · rw [List.mem_singleton.mp hu]
        exact List.rel_of_pairwise_cons (List.pairwise_append.mp hordered).2.1 hback
    refine hfront _ ?_
    rcases h with ⟨-, he⟩ | ⟨hspent, he⟩
    · rw [he, Cursor.current, hrest]
      cases skipped <;> simp
    · cases skipped with
      | nil =>
        have hcurrent : c.current = semicolon := by rw [Cursor.current, hrest]; rfl
        exact absurd (hcurrent ▸ hsemi) (TokenKind.ne_semicolon_of_isInner hspent.isInner)
      | cons u skipped =>
        rw [he, c.peek_eq, hrest]
        exact List.mem_cons_of_mem _ (nextToken_mem (by rw [hsemi]; rfl) _ _ _)
  · exact ⟨htracked.rest List.nil_suffix, fun _ _ _ ht => by cases ht⟩

/-- If a run of the reader does not fail, nothing is blamed behind the token on which it ends. -/
abbrev Settles (x : Read α) (c : Cursor) : Prop := Keeps (fun _ d => Awaiting d.step) (x c)

theorem statement_settles (h : Awaiting c) (hne : c.rest ≠ []) : Settles statement c := by
  have hs := expression_spends nestingLimit
  refine .current ?_
  change Settles _ c
  split
  · rename_i hk
    have hspent := (h.fresh hne (by rw [hk]; rfl)).spent (by rw [hk]; rfl)
    refine (binding_keeps hs hspent).bind fun _ _ hd => .pure ?_
    exact hd.1.toTracked.step fun e he => (hd.1.errors_lt e he).le
  · exact .pure (h.suffix (List.tail_suffix _))
  · exact .pure (h.suffix (List.tail_suffix _))
  · rename_i hline hblock
    have hcomment : c.current.kind.isComment = false := by
      cases hk : c.current.kind <;> first | rfl | contradiction
    refine (hs.spends (h.fresh hne hcomment)).bind fun _ d hd =>
      .peek (.ite (fun _ => ?_) fun _ => ?_)
    · exact .advance (.pure (hd.advance.toTracked.step fun e he => (hd.advance.errors_lt e he).le))
    · exact .pure (hd.toTracked.step hd.errors_le)

theorem statements_errors_ordered (steps : Nat) (h : Awaiting c) :
    (statements steps c).2.errors.Pairwise (·.token.start < ·.token.start) := by
  induction steps generalizing c with
  | zero => exact h.errors
  | succ steps ih =>
    rcases eq_or_ne c.rest [] with hnil | hne
    · rw [statements_of_rest_nil hnil]
      exact h.errors
    by_cases hk : c.current.kind = .mark .semicolon
    · rw [statements_of_semicolon hne hk]
      exact ih (h.suffix (List.tail_suffix _))
    · rcases yields_or_fails statement c with ⟨s, d, hs⟩ | ⟨e, d, hs⟩
      · rw [statements_of_yields hne hk hs]
        exact ih ((statement_settles h hne).of_yields hs)
      · rw [statements_of_fails hne hk hs]
        exact ih ((statement_settles h hne).of_fails hs).synchronize

end Read

open Read

/-- The tokens of a text and its end token stand at different places, one behind the other. -/
theorem tokenize_starts (source : String) :
    (tokenize source ++ [Token.endOf (LineIndex.ofString source)]).Pairwise
      (·.start < ·.start) := by
  refine List.pairwise_append.mpr ⟨?_, List.pairwise_singleton _ _, ?_⟩
  · have hapart : (tokenize source).Pairwise (·.stop ≤ ·.start) :=
      Token.scan_pairwise (Nat.zero_add _)
    refine hapart.imp_of_mem fun {a b} ha _ hab => ?_
    exact (Token.start_lt_stop ha).1.trans_le hab
  · intro a ha b hb
    rw [List.mem_singleton.mp hb]
    have hlt := Token.start_lt_stop ha
    exact hlt.1.trans_le hlt.2

/-- In a text whose brackets are closed by their own marks no token is blamed twice. -/
theorem parse_errors_ordered {source : String} (h : Paired (tokenize source)) :
    (parse source).errors.Nodup ∧
      (parse source).errors.Pairwise (·.token.start < ·.token.start) := by
  have hstart : Awaiting ⟨tokenize source, .endOf (LineIndex.ofString source), []⟩ :=
    ⟨⟨rfl, h, tokenize_starts source, .nil⟩, fun _ he => by cases he⟩
  have hordered : (parse source).errors.Pairwise (·.token.start < ·.token.start) :=
    statements_errors_ordered _ hstart
  refine ⟨hordered.imp fun hlt heq => ?_, hordered⟩
  rw [heq] at hlt
  exact lt_irrefl _ hlt

theorem parse_errors_ordered_nested : Paired (tokenize "sum(sum(*) 2, *)") ∧
    (parse "sum(sum(*) 2, *)").errors.length = 3 ∧ (parse "sum(sum(*) 2, *)").errors.Nodup :=
  have ⟨hpaired, hcount⟩ : Paired (tokenize "sum(sum(*) 2, *)") ∧
      (parse "sum(sum(*) 2, *)").errors.length = 3 := by decide +kernel
  ⟨hpaired, hcount, (parse_errors_ordered hpaired).1⟩

/-- Where a bracket is closed by a mark of the other kind, recovery may go back to a token that has
been blamed. -/
theorem parse_errors_repeated : ¬ ∀ source, (parse source).errors.Nodup := by
  intro h
  have hnodup := h "sum(sum(], *) 3"
  revert hnodup
  decide +kernel

end PayFormula
