import PayFormula.Proofs.Grammar.Program
import PayFormula.Proofs.Grammar.Reread
import PayFormula.Proofs.Grammar.Solid
import PayFormula.Proofs.Grammar.Spelled

/-!
# Printing and reading

A program that was read without errors is printed as a text that is read without
errors, as the same statements up to places and spelling. Printing it again gives
the same text. All but the first holds as well if tokens were passed over in it
that can be printed and passed over again.

Each line of the printed text spells the pieces of a statement, so the tokens of
the text are known. Phrases with these pieces stand at the places of the old
ones, and the readers read every phrase.
-/
namespace PayFormula

/-- The text is read as the pieces at the end of a line. -/
def SpellsLine (line : String) (ps : List Piece) : Prop :=
  ∀ ⦃after qs⦄, (∀ d ∈ after.head?, d = '\n') → Reads after qs →
    Reads (line.toList ++ after) (ps ++ qs)

theorem Spells.line {line : String} {ps : List Piece} (h : Spells line ps) :
    SpellsLine line ps := by
  intro after qs hend hreads
  refine h (fun d hd => ?_) hreads
  rw [hend d hd]
  decide

/-- Lines are read one after another. -/
theorem reads_lines {lines : List String} {parts : List (List Piece)}
    (h : List.Forall₂ SpellsLine lines parts) :
    Reads ("\n".intercalate lines).toList parts.flatten := by
  induction h with
  | nil => exact .nil
  | @cons line part lines parts hfirst hothers ih =>
    cases hothers with
    | nil =>
      have hreads := @hfirst [] [] (by simp) .nil
      simpa using hreads
    | cons hsecond hothers =>
      rw [String.intercalate_cons_cons, String.toList_append, String.toList_append,
        List.append_assoc, List.flatten_cons]
      refine hfirst ?_ (.space rfl ih)
      intro d hd
      cases hd
      rfl

namespace Grammar

open Read

/-- What may be passed over can be printed and passed over again, as if `f` stood for it. -/
structure Repeats (quiet : Prop) (f : SyntaxError → List Token → Expr) (gaps : Gaps) : Prop where
  skips : ∀ levels, Skips quiet (expression levels) (gaps levels)
  solid : ∀ levels {toks stop e}, gaps levels toks stop e → Solid toks
  spelled : ∀ levels, SpelledGap (gaps levels)
  reread : ∀ levels, GapReread f (gaps levels)

theorem spelled_none (levels : Nat) : SpelledGap (Gaps.none levels) := fun h => h.elim

/-- In the strict grammar there is nothing to repeat. -/
theorem repeats_none : Repeats True .failed Gaps.none where
  skips := skips_none
  solid _ _ _ _ h := h.elim
  spelled := spelled_none
  reread := gapReread_none

variable {quiet lax : Prop} {gaps : Gaps} {eof : Token}

theorem Legible.of_between {before toks after : List Token} (hl : Legible before)
    (h : Between before toks after) : Legible toks ∧ Legible after := by
  obtain ⟨raw, rfl, rfl⟩ := h
  exact ⟨fun t ht => hl.left t (List.mem_of_mem_filter ht), hl.right⟩

/-- Every line that is printed for statements that were read spells their pieces. -/
theorem lines_spell (hgaps : ∀ levels, SpelledGap (gaps levels)) {tokens : List Token}
    {ss : List Statement} (h : Lines lax gaps eof tokens ss) (hl : Legible tokens) :
    List.Forall₂ SpellsLine (Program.renderStatements ss) (linePieces ss) := by
  have hexpression {toks : List Token} {next : Token} {e : Expr} {ss : List Statement}
      (he : Expression gaps nestingLimit .lowest toks next e) (hl : Legible toks)
      (hss : List.Forall₂ SpellsLine (Program.renderStatements ss) (linePieces ss)) :
      List.Forall₂ SpellsLine (Program.renderStatements (.expression e :: ss))
        (linePieces (.expression e :: ss)) := by
    have hspells := (expression_spells hgaps nestingLimit).spells he hl
    cases ss with
    | nil => exact .cons hspells.line .nil
    | cons s ss =>
      have hopens : Opens ";" := ⟨';', [], rfl, by decide⟩
      exact .cons (hspells.firm_append hopens (firm_mark (m := .semicolon) rfl)).spells.line hss
  induction h with
  | nil => exact .nil
  | skip _ _ ih => exact ih hl.tail
  | @lineComment t _ _ hk _ ih =>
    obtain ⟨hrender, hpieces⟩ := lines_cons (s := .lineComment ⟨t⟩) (by simp) _
    rw [hrender, hpieces]
    refine .cons ?_ (ih hl.tail)
    exact fun after qs hend hreads => reads_lineComment hl.head hk hend hreads
  | @blockComment t _ _ hk _ ih =>
    obtain ⟨hrender, hpieces⟩ := lines_cons (s := .blockComment ⟨t⟩) (by simp) _
    rw [hrender, hpieces]
    refine .cons ?_ (ih hl.tail)
    exact (kept_spells hl.head (by rw [hk]; rfl) (by rw [hk]; simp)).line
  | @binding _ _ _ b _ hb hbound _ ih =>
    obtain ⟨hrender, hpieces⟩ := lines_cons (s := .binding b) (by simp) _
    obtain ⟨htoks, hafter⟩ := hl.of_between hb
    rw [hrender, hpieces]
    have hspells := bound_spells (expression_spells hgaps nestingLimit) hbound htoks
    exact .cons hspells.spells.line (ih hafter)
  | expression hb he _ ih =>
    obtain ⟨htoks, hafter⟩ := hl.of_between hb
    exact hexpression he htoks (ih hafter)
  | ended hb he hb' _ _ ih =>
    obtain ⟨htoks, hmiddle⟩ := hl.of_between hb
    exact hexpression he htoks (ih (hmiddle.of_between hb').2)

/-- What is left behind a comment is known by what of it is no comment. -/
theorem eq_of_suffixes {l a b : List Token} (ha : a <:+ l) (hb : b <:+ l)
    (hfa : ∀ t ∈ a.head?, t.kind.isComment = false) (hfb : ∀ t ∈ b.head?, t.kind.isComment = false)
    (h : a.filter (!·.kind.isComment) = b.filter (!·.kind.isComment)) : a = b := by
  have hlonger {a b : List Token} (hab : a <:+ b) (hfb : ∀ t ∈ b.head?, t.kind.isComment = false)
      (h : a.filter (!·.kind.isComment) = b.filter (!·.kind.isComment)) : a = b := by
    obtain ⟨front, rfl⟩ := hab
    cases front with
    | nil => rfl
    | cons t front =>
      have ht := hfb t rfl
      have hlen := congrArg List.length h
      simp only [List.cons_append, List.filter_cons, ht, Bool.not_false, ↓reduceIte,
        List.filter_append, List.length_cons, List.length_append] at hlen
      omega
  rcases List.suffix_or_suffix_of_suffix ha hb with hab | hba
  · exact hlonger hab hfb h
  · exact (hlonger hba hfa h.symm).symm

variable {c : Cursor} {toks after : List Token}

theorem current_ahead_of_rest {t : Token} (hc : c.rest = t :: toks ++ after) (hs : Solid toks) :
    c.current :: c.ahead = t :: toks ++ after.filter (!·.kind.isComment) := by
  rw [Cursor.current, Cursor.ahead, hc, List.cons_append, List.headD_cons, List.tail_cons,
    hs.filter_eq, List.cons_append]

/-- A cursor on a token that is no comment has what stands behind it left. -/
theorem rest_eq_of_ahead {l : List Token} {t : Token} (he : c.eof.kind = .eof) (hl : c.rest <:+ l)
    (ht : t.kind.isSolid) (hafter : t :: after <:+ l)
    (hc : c.current :: c.ahead = t :: after.filter (!·.kind.isComment)) : c.rest = t :: after := by
  obtain ⟨hcurrent, hahead⟩ := List.cons.inj hc
  have hrest := c.rest_eq_of_isSolid he (hcurrent ▸ ht)
  have hcomment := TokenKind.not_isComment_of_isSolid ht
  refine eq_of_suffixes hl hafter ?_ ?_ ?_
  · rw [hrest, hcurrent]
    intro u hu
    cases hu
    exact hcomment
  · intro u hu
    cases hu
    exact hcomment
  · rw [hrest, hcurrent, List.filter_cons, List.filter_cons, hcomment]
    exact congrArg (t :: ·) hahead

/-- A binding is read up to its semicolon. -/
theorem binding_stops {sub : SubReader} {b : Binding} {c' : Cursor}
    (h : Yields (binding sub) c b c') :
    c'.current = b.semicolon ∧ b.semicolon.kind = .mark .semicolon := by
  rw [binding, current_bind_yields_iff] at h
  obtain ⟨name, c₁, -, h⟩ := bind_yields_iff.mp h
  obtain ⟨eq, c₂, -, h⟩ := bind_yields_iff.mp h
  rw [advance_bind_yields_iff] at h
  obtain ⟨value, c₃, -, h⟩ := bind_yields_iff.mp h
  rw [peek_bind_yields_iff] at h
  split at h
  · rename_i hk
    rw [advance_bind_yields_iff] at h
    obtain ⟨rfl, rfl⟩ := pure_yields_iff.mp h
    exact ⟨rfl, hk⟩
  · exact absurd h not_fail_yields

/-- A run of a reader that ends in front of the given tokens, with no error if it has to be
quiet. -/
def Ends {α : Type} (quiet : Prop) (x : Read α) (c : Cursor) (a : α) (after : List Token) : Prop :=
  ∃ c', Yields x c a c' ∧ c'.step.rest = after ∧ c'.eof = c.eof ∧ (quiet → c'.errors = c.errors)

/-- Tokens with the pieces of the statements are read as these, up to places and spelling. -/
def Rereads (quiet : Prop) (f : SyntaxError → List Token → Expr) (ss : List Statement) : Prop :=
  ∀ steps c, c.eof.kind = .eof → c.rest.length ≤ steps →
    c.rest.map Token.piece = (linePieces ss).flatten →
    ∃ ss' c', statements steps c = (ss', c') ∧ (quiet → c'.errors = c.errors) ∧
      ss'.map (Statement.plainWith f) = ss.map (Statement.plainWith f)

section Repeated

variable {f : SyntaxError → List Token → Expr} (hg : Repeats quiet f gaps)

include hg in
theorem binding_ends {b : Binding} (he : c.eof.kind = .eof)
    (h : Bound (Expression gaps nestingLimit) toks b) (hc : c.rest = toks ++ after) :
    Ends quiet statement c (.binding b) after := by
  have hsolid := bound_solid (expression_solid hg.solid nestingLimit) h
  have hfront : ∃ t ts, toks = t :: ts ∧ t.kind = .keyword .varWord := by
    cases h with
    | intro hk _ _ _ _ => exact ⟨_, _, rfl, hk⟩
  have hsuffix : b.semicolon :: after <:+ toks ++ after := by
    cases h with
    | @intro t n eq _ toks _ _ _ _ _ _ => exact ⟨t :: n :: eq :: toks, by simp⟩
  obtain ⟨t, ts, rfl, hk⟩ := hfront
  have hahead := current_ahead_of_rest hc (Solid.cons_iff.mp hsolid).2
  obtain ⟨c₁, hy, ha₁, he₁, hr₁⟩ :=
    binding_consumes (expression_complete hg.skips nestingLimit) h hahead
  obtain ⟨hcurrent, hsemi⟩ := binding_stops hy
  have hp := (binding_steady (expression_steady nestingLimit)).of_yields hy
  have hrest : c₁.rest = b.semicolon :: after := by
    refine rest_eq_of_ahead (he₁ ▸ he) hp.rest (isSolid_of_kind hsemi rfl) (hc ▸ hsuffix) ?_
    rw [hcurrent, ha₁]
  refine ⟨c₁, ?_, by rw [Cursor.step, hrest]; rfl, he₁, hr₁⟩
  have hvar : c.current.kind = .keyword .varWord := by rw [(List.cons.inj hahead).1, hk]
  exact statement_yields_iff.mpr (.inl ⟨hvar, b, hy, rfl⟩)

/-- What starts like an expression is read as one, and the semicolon behind it if there is one. -/
theorem statement_of_starts (hk : c.current.kind.starts) :
    statement c = (expression nestingLimit .lowest >>= fun value => peek >>= fun t =>
      if t.kind = .mark .semicolon then advance >>= fun _ => pure (.expression value)
      else pure (.expression value)) c := by
  rw [statement, current_bind_run]
  refine congrFun ?_ c
  split
  · rename_i hvar
    rw [hvar] at hk
    cases hk
  · rename_i hcomment
    rw [hcomment] at hk
    cases hk
  · rename_i hcomment
    rw [hcomment] at hk
    cases hk
  · rfl

theorem expression_statement_yields {e : Expr} {c₁ : Cursor} (hk : c.current.kind.starts)
    (h : Yields (expression nestingLimit .lowest) c e c₁) :
    Yields statement c (.expression e)
      (if c₁.peek.kind = .mark .semicolon then c₁.advance else c₁) := by
  refine statement_yields_iff.mpr (.inr (.inr (.inr ⟨?_, ?_, ?_, e, c₁, h, rfl, rfl⟩))) <;>
    · intro hkind
      rw [hkind] at hk
      cases hk

include hg in
theorem expression_consumed {levels : Nat} {e : Expr} {next : Token}
    (h : Expression gaps levels .lowest toks next e) (hc : c.rest = toks ++ after)
    (hnext : (after.filter (!·.kind.isComment)).headD c.eof = next) :
    c.current.kind.starts ∧ ∃ c₁, Yields (expression levels .lowest) c e c₁ ∧
      c₁.ahead = after.filter (!·.kind.isComment) ∧ c₁.eof = c.eof ∧
      (quiet → c₁.errors = c.errors) ∧ c₁.rest <:+ c.rest := by
  have hsolid := (expression_solid hg.solid levels).solid h
  obtain ⟨t, ts, rfl, ht⟩ := expression_starts h
  have hahead := current_ahead_of_rest hc (Solid.cons_iff.mp hsolid).2
  obtain ⟨c₁, hy, ha₁, he₁, hr₁⟩ := (expression_complete hg.skips levels).reads h hahead hnext
  refine ⟨?_, c₁, hy, ha₁, he₁, hr₁, ((expression_steady levels _).of_yields hy).rest⟩
  rw [(List.cons.inj hahead).1]
  exact ht

/-- An expression that is read up to the end is the last statement. -/
theorem last_ends_of_yields {e : Expr} {c₁ : Cursor} (he : c.eof.kind = .eof)
    (hsolid : Solid c.rest) (hk : c.current.kind.starts)
    (hy : Yields (expression nestingLimit .lowest) c e c₁) (hahead : c₁.ahead = [])
    (herrors : quiet → c₁.errors = c.errors) : Ends quiet statement c (.expression e) [] := by
  have hp := (expression_steady nestingLimit _).of_yields hy
  have hpeek : c₁.peek.kind = .eof := by
    rw [c₁.peek_eq_headD, hahead, hp.eof]
    exact he
  have hstep : c₁.step.rest = [] := by
    have htail : Solid c₁.rest.tail :=
      fun t ht => hsolid t (hp.rest.subset (List.mem_of_mem_tail ht))
    have hfilter := htail.filter_eq []
    rw [List.append_nil] at hfilter
    rw [Cursor.step, ← hfilter.trans (List.append_nil _)]
    exact hahead
  have hyields := expression_statement_yields hk hy
  rw [if_neg (by rw [hpeek]; simp)] at hyields
  exact ⟨c₁, hyields, hstep, hp.eof, herrors⟩

include hg in
theorem last_ends {e : Expr} (he : c.eof.kind = .eof)
    (h : Expression gaps nestingLimit .lowest c.rest c.eof e) :
    Ends quiet statement c (.expression e) [] := by
  have hc : c.rest = c.rest ++ [] := (List.append_nil _).symm
  obtain ⟨hk, c₁, hy, hahead, -, herrors, -⟩ := expression_consumed hg h hc rfl
  exact last_ends_of_yields he
    ((expression_solid hg.solid nestingLimit).solid h) hk hy hahead herrors

include hg in
theorem ended_ends {e : Expr} {semicolon : Token} (he : c.eof.kind = .eof)
    (h : Expression gaps nestingLimit .lowest toks semicolon e)
    (hk : semicolon.kind = .mark .semicolon) (hc : c.rest = toks ++ semicolon :: after) :
    Ends quiet statement c (.expression e) after := by
  have hfilter : (semicolon :: after).filter (!·.kind.isComment) =
      semicolon :: after.filter (!·.kind.isComment) := by
    rw [List.filter_cons, hk]
    rfl
  obtain ⟨hstarts, c₁, hy, ha₁, he₁, hr₁, hrest⟩ :=
    expression_consumed hg h hc (by rw [hfilter]; rfl)
  rw [hfilter] at ha₁
  have hpeek := Cursor.peek_of_ahead ha₁
  have hadvance : c₁.advance.rest = semicolon :: after := by
    have hl : c₁.advance.rest <:+ c.rest := c₁.following_suffix.trans hrest
    have hafter : semicolon :: after <:+ c.rest := ⟨toks, hc.symm⟩
    exact rest_eq_of_ahead (c := c₁.advance) (he₁ ▸ he) hl (isSolid_of_kind hk rfl) hafter
      (Cursor.advance_of_ahead ha₁)
  have hyields := expression_statement_yields hstarts hy
  rw [if_pos (by rw [hpeek, hk])] at hyields
  exact ⟨c₁.advance, hyields, by rw [Cursor.step, hadvance]; rfl, he₁, hr₁⟩

theorem comment_ends {t : Token} (hc : c.rest = t :: after) :
    (t.kind = .lineComment → Ends quiet statement c (.lineComment ⟨t⟩) after) ∧
      (t.kind = .blockComment → Ends quiet statement c (.blockComment ⟨t⟩) after) := by
  have hcurrent : c.current = t := by rw [Cursor.current, hc]; rfl
  have hstep : c.step.rest = after := by rw [Cursor.step, hc]; rfl
  constructor <;> intro hk
  · have hcomment : Yields statement c (.lineComment ⟨t⟩) c := by
      refine statement_yields_iff.mpr (.inr (.inl ⟨?_, ?_, rfl⟩)) <;> rw [hcurrent]
      exact hk
    exact ⟨c, hcomment, hstep, rfl, fun _ => rfl⟩
  · have hcomment : Yields statement c (.blockComment ⟨t⟩) c := by
      refine statement_yields_iff.mpr (.inr (.inr (.inl ⟨?_, ?_, rfl⟩))) <;> rw [hcurrent]
      exact hk
    exact ⟨c, hcomment, hstep, rfl, fun _ => rfl⟩

theorem rereads_nil : Rereads quiet f [] := by
  intro steps c _ _ hp
  have hnil : c.rest = [] := List.map_eq_nil_iff.mp hp
  refine ⟨[], c, ?_, fun _ => rfl, rfl⟩
  cases steps with
  | zero => rfl
  | succ steps => rw [statements, if_pos (by rw [hnil]; rfl)]

/-- One statement is read, and then the others. -/
theorem rereads_cons {s s' : Statement} {ss : List Statement} {steps : Nat} {t : Token}
    (ih : Rereads quiet f ss) (he : c.eof.kind = .eof) (hlen : c.rest.length ≤ steps)
    (hc : c.rest = t :: toks ++ after) (hk : t.kind ≠ .mark .semicolon)
    (hends : Ends quiet statement c s' after) (hplain : s'.plainWith f = s.plainWith f)
    (hafter : after.map Token.piece = (linePieces ss).flatten) :
    ∃ ss' c', statements steps c = (ss', c') ∧ (quiet → c'.errors = c.errors) ∧
      ss'.map (Statement.plainWith f) = (s :: ss).map (Statement.plainWith f) := by
  have hcurrent : c.current = t := by rw [Cursor.current, hc]; rfl
  have hlength := congrArg List.length hc
  rw [List.cons_append, List.length_cons, List.length_append] at hlength
  cases steps with
  | zero => omega
  | succ steps =>
    obtain ⟨c₁, hy, hrest, he₁, hr₁⟩ := hends
    obtain ⟨ss', c', hrun, hr', hplains⟩ :=
      ih steps c₁.step (he₁ ▸ he) (by rw [hrest]; omega) (by rw [hrest]; exact hafter)
    refine ⟨s' :: ss', c', ?_, fun h => (hr' h).trans (hr₁ h), congrArg₂ List.cons hplain hplains⟩
    rw [statements, if_neg (by rw [hc]; simp), if_neg (by rw [hcurrent]; exact hk),
      show statement c = (.ok s', c₁) from hy]
    simp only [hrun]

include hg in
theorem expression_rereads {next : Token} {e : Expr} {ss : List Statement}
    (h : Expression gaps nestingLimit .lowest toks next e) (ih : Rereads quiet f ss) :
    Rereads quiet f (.expression e :: ss) := by
  intro steps c he hlen hp
  have hreread := @(expression_reread hg.reread nestingLimit).reread _ _ _ _ h
  have hstarts {t : Token} (ht : t.kind.starts) : t.kind ≠ .mark .semicolon := by
    intro hk
    rw [hk] at ht
    cases ht
  cases ss with
  | nil =>
    have hpieces : (linePieces [.expression e]).flatten = e.pieces := List.append_nil _
    have hnext : Follows next c.eof := .inr (.inl he)
    obtain ⟨e', he', hplain⟩ := hreread (hp.trans hpieces) hnext
    obtain ⟨t, ts, hrest, ht⟩ := expression_starts he'
    have hc : c.rest = t :: ts ++ [] := by rw [hrest, List.append_nil]
    exact rereads_cons ih he hlen hc (hstarts ht) (last_ends hg he he')
      (congrArg Statement.expression hplain) rfl
  | cons s ss =>
    have hpieces : (linePieces (.expression e :: s :: ss)).flatten =
        e.pieces ++ Mark.semicolon.piece :: (linePieces (s :: ss)).flatten := by
      change ((e.pieces ++ [Mark.semicolon.piece]) :: linePieces (s :: ss)).flatten = _
      rw [List.flatten_cons, List.append_assoc]
      rfl
    obtain ⟨front, back, hc, hfront, hback⟩ := List.map_eq_append_iff.mp (hp.trans hpieces)
    obtain ⟨semicolon, after, rfl, hsemi, hafter⟩ := List.map_eq_cons_iff.mp hback
    have hk : semicolon.kind = .mark .semicolon := Token.kind_of_piece hsemi
    have hnext : Follows next semicolon := .inr (.inr hk)
    obtain ⟨e', he', hplain⟩ := hreread hfront hnext
    obtain ⟨t, ts, rfl, ht⟩ := expression_starts he'
    have hends := ended_ends hg he he' hk hc
    have hc' : c.rest = t :: (ts ++ [semicolon]) ++ after := by
      rw [hc]
      simp
    exact rereads_cons ih he hlen hc' (hstarts ht) hends (congrArg Statement.expression hplain)
      hafter

include hg in
theorem binding_rereads {b : Binding} {ss : List Statement}
    (h : Bound (Expression gaps nestingLimit) toks b) (ih : Rereads quiet f ss) :
    Rereads quiet f (.binding b :: ss) := by
  intro steps c he hlen hp
  rw [(lines_cons (s := .binding b) (by simp) ss).2, List.flatten_cons] at hp
  obtain ⟨front, after, hc, hfront, hafter⟩ := List.map_eq_append_iff.mp hp
  obtain ⟨b', hb', hplain⟩ := bound_reread (expression_reread hg.reread nestingLimit) h hfront
  have hends := binding_ends hg he hb' hc
  cases hb' with
  | intro hk _ _ _ _ =>
    exact rereads_cons ih he hlen hc (by rw [hk]; simp) hends (congrArg Statement.binding hplain)
      hafter

theorem comment_rereads {t : Token} {ss : List Statement} (ih : Rereads quiet f ss) :
    (t.kind = .lineComment → Rereads quiet f (.lineComment ⟨t⟩ :: ss)) ∧
      (t.kind = .blockComment → Rereads quiet f (.blockComment ⟨t⟩ :: ss)) := by
  constructor <;> intro hk steps c he hlen hp
  · rw [(lines_cons (s := .lineComment ⟨t⟩) (by simp) ss).2] at hp
    obtain ⟨t', after, hc, ht, hafter⟩ := List.map_eq_cons_iff.mp hp
    have hk' : t'.kind = .lineComment := (Token.kind_of_piece ht).trans hk
    have hplain : Comment.plain ⟨t'⟩ = Comment.plain ⟨t⟩ :=
      congrArg Comment.mk (Token.unplaced_of_piece ht)
    have hc' : c.rest = t' :: [] ++ after := hc
    exact rereads_cons ih he hlen hc' (by rw [hk']; simp) ((comment_ends hc).1 hk')
      (congrArg Statement.lineComment hplain) hafter
  · rw [(lines_cons (s := .blockComment ⟨t⟩) (by simp) ss).2] at hp
    obtain ⟨t', after, hc, ht, hafter⟩ := List.map_eq_cons_iff.mp hp
    have hk' : t'.kind = .blockComment := (Token.kind_of_piece ht).trans hk
    have hplain : Comment.plain ⟨t'⟩ = Comment.plain ⟨t⟩ :=
      congrArg Comment.mk (Token.unplaced_of_piece ht)
    have hc' : c.rest = t' :: [] ++ after := hc
    exact rereads_cons ih he hlen hc' (by rw [hk']; simp) ((comment_ends hc).2 hk')
      (congrArg Statement.blockComment hplain) hafter

include hg in
/-- Statements that were read are read again from their pieces. -/
theorem lines_rereads {tokens : List Token} {ss : List Statement}
    (h : Lines lax gaps eof tokens ss) : Rereads quiet f ss := by
  induction h with
  | nil => exact rereads_nil
  | skip _ _ ih => exact ih
  | lineComment hk _ ih => exact (comment_rereads ih).1 hk
  | blockComment hk _ ih => exact (comment_rereads ih).2 hk
  | binding _ hb _ ih => exact binding_rereads hg hb ih
  | expression _ he _ ih => exact expression_rereads hg he ih
  | ended _ he _ _ _ ih => exact expression_rereads hg he ih

end Repeated

end Grammar

open Grammar

/-- The run that reads the tokens of a text gives its statements and errors. -/
theorem parse_of_run {source : String} {ss : List Statement} {c : Cursor}
    (h : Read.statements (tokenize source).length
      ⟨tokenize source, .endOf (LineIndex.ofString source), []⟩ = (ss, c)) :
    (parse source).program.statements = ss ∧ (parse source).errors = c.errors := by
  unfold parse parseTokens
  rw [h]
  exact ⟨rfl, rfl⟩

/-- The text that is printed for statements in which only what can be repeated was passed over is
read as these statements, and printed as it stands. -/
theorem parse_lines_repeated {quiet lax : Prop} {f : SyntaxError → List Token → Expr} {gaps : Gaps}
    {eof : Token} {tokens : List Token} {ss : List Statement} (hg : Repeats quiet f gaps)
    (hf : ∀ e tokens, (f e tokens).render = (Expr.failed e tokens).render)
    (h : Lines lax gaps eof tokens ss) (hl : Legible tokens) {printed : String}
    (hprinted : printed = "\n".intercalate (Program.renderStatements ss)) :
    (quiet → (parse printed).errors = []) ∧
      (parse printed).program.statements.map (Statement.plainWith f) =
        ss.map (Statement.plainWith f) ∧
      (parse printed).program.render = printed := by
  have hreads := reads_lines (lines_spell hg.spelled h hl)
  rw [← hprinted] at hreads
  obtain ⟨ss', c, hrun, herrors, hplain⟩ := lines_rereads hg h (tokenize printed).length
    ⟨tokenize printed, .endOf (LineIndex.ofString printed), []⟩ rfl le_rfl
    (tokenize_pieces_eq hreads)
  obtain ⟨rfl, herr⟩ := parse_of_run hrun
  refine ⟨fun hquiet => herr.trans (herrors hquiet), hplain, ?_⟩
  have hlines := congrArg Program.renderStatements hplain
  rw [Program.renderStatements_plainWith hf, Program.renderStatements_plainWith hf] at hlines
  rw [Program.render, hlines, ← hprinted]

/-- So is the text that is printed for statements in which nothing was passed over, without
errors. -/
theorem parse_lines_printed {eof : Token} {tokens : List Token} {ss : List Statement}
    (h : Lines False Gaps.none eof tokens ss) (hl : Legible tokens) {printed : String}
    (hprinted : printed = "\n".intercalate (Program.renderStatements ss)) :
    (parse printed).errors = [] ∧
      (parse printed).program.statements.map Statement.plain = ss.map Statement.plain ∧
      (parse printed).program.render = printed := by
  have hplain : Statement.plainWith .failed = Statement.plain :=
    funext Statement.plainWith_failed
  have hround := parse_lines_repeated repeats_none (fun _ _ => rfl) h hl hprinted
  rw [hplain] at hround
  exact ⟨hround.1 trivial, hround.2⟩

/-- A text that is read without errors is printed as one that is read without errors, as the same
statements up to places and spelling, and that is printed as it stands. -/
theorem parse_render_parse (source : String) (h : (parse source).errors = []) :
    let printed := (parse source).program.render
    (parse printed).errors = [] ∧
      (parse printed).program.statements.map Statement.plain =
        (parse source).program.statements.map Statement.plain ∧
      (parse printed).program.render = printed := by
  have hl : Legible (tokenize source) := fun _ ht => tokenize_isRead ht
  have hprinted : (parse source).program.render =
      "\n".intercalate (Program.renderStatements (parse source).program.statements) := rfl
  exact parse_lines_printed (parse_lines_strict h) hl hprinted

theorem parse_render_parse_respelled :
    (parse "1 AND [\"a\",] // c").errors = [] ∧
      (parse "1 AND [\"a\",] // c").program.render = "1 && [\"a\"];\n// c" ∧
      (parse "1 && [\"a\"];\n// c").errors = [] ∧
      (parse "1 && [\"a\"];\n// c").program.statements.map Statement.plain =
        (parse "1 AND [\"a\",] // c").program.statements.map Statement.plain ∧
      (parse "1 && [\"a\"];\n// c").program.render = "1 && [\"a\"];\n// c" := by
  have h : (parse "1 AND [\"a\",] // c").errors = [] := by decide +kernel
  have hprinted : (parse "1 AND [\"a\",] // c").program.render = "1 && [\"a\"];\n// c" := by
    decide +kernel
  have hround := parse_render_parse "1 AND [\"a\",] // c" h
  rw [hprinted] at hround
  exact ⟨h, hprinted, hround⟩

end PayFormula
