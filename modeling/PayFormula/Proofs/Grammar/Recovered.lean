import Mathlib.Data.List.Forall2
import PayFormula.Proofs.Grammar.Narrowed
import PayFormula.Proofs.Grammar.RoundTrip
import PayFormula.Proofs.Reading.Abreast
import PayFormula.Proofs.Reading.Enclosed

/-!
# Printing and reading what was passed over

A placeholder is printed as the tokens it stands for. If these are tidy they are
read as themselves, an argument fails at them as it did, and recovery passes over
the same ones. What an argument fails at does not depend on what stands behind the
`,` or `)` after it, nor on places. So a program all of whose placeholders are tidy
is printed as a text that is printed as it stands.
-/
namespace PayFormula

/-- The tokens that a placeholder stands for. -/
def Node.skipped : Node → List Token
  | .expr (.failed _ tokens) => tokens
  | _ => []

namespace Grammar

open Read

/-- An argument fails at the tokens, and recovery passes over them up to the one at which it
stops. -/
structure Passed (levels : Nat) (toks : List Token) (stop : Token) (e : SyntaxError) : Prop where
  outside : splitAtStop? [.mark .comma, .mark .rparen] 0 (toks ++ [stop]) = some (toks, [stop])
  fails : ∃ c c' after, c.rest ≠ [] ∧ c.current.kind.isComment = false ∧
    c.current :: c.ahead = toks ++ stop :: after ∧ Fails (argument (expression levels)) c e c'

theorem passed_excuses (levels : Nat) : Excuses (expression levels) (Passed levels) := by
  intro c e c' skipped after stop hcomment hf hsplit
  have hrest := splitAtStop?_eq_append hsplit
  have hne : c.rest ≠ [] := by simp [hrest]
  have hahead := (split_ahead_iff hne hcomment).mpr ⟨skipped, after, hsplit, rfl, rfl⟩
  have htokens := splitAtStop?_eq_append hahead
  refine ⟨?_, c, c', _, hne, hcomment, htokens, hf⟩
  rw [htokens] at hahead
  exact splitAtStop?_congr hahead rfl rfl []

namespace Passed

variable {levels : Nat} {toks toks' : List Token} {stop stop' : Token} {e : SyntaxError}

theorem stop_kind (h : Passed levels toks stop e) :
    stop.kind = .mark .comma ∨ stop.kind = .mark .rparen := by
  obtain ⟨t, rest, heq, ht⟩ := splitAtStop?_stop h.outside
  obtain ⟨rfl, -⟩ := List.cons.inj heq
  simpa using ht

theorem not_isComment (h : Passed levels toks stop e) : ∀ t ∈ toks, t.kind.isComment = false := by
  obtain ⟨c, c', after, hne, hcomment, hahead, -⟩ := h.fails
  intro t ht
  have hmem : t ∈ c.current :: c.ahead := hahead ▸ List.mem_append_left _ ht
  rcases List.mem_cons.mp hmem with rfl | hmem
  · exact hcomment
  · simpa using (List.mem_filter.mp hmem).2

/-- An argument fails alike at tokens with the same pieces, whatever stands behind the stop. -/
theorem fails_alike {Same : Token → Token → Prop} (h : Passed levels toks stop e)
    (hn : nests [] toks)
    (htoks : List.Forall₂ (fun t t' => t'.piece = t.piece ∧ Same t t') toks toks')
    (hk : stop'.kind = stop.kind) (hsame : Same stop stop') {c : Cursor} {after : List Token}
    (hne : c.rest ≠ []) (hahead : c.current :: c.ahead = toks' ++ stop' :: after) :
    ∃ e' c', Fails (argument (expression levels)) c e' c' ∧ e'.cause = e.cause ∧
      Same e.token e'.token := by
  obtain ⟨c₀, c₁, after₀, hne₀, -, hahead₀, hf⟩ := h.fails
  have hoff := (List.forall₂_and_left _ _).mpr ⟨h.not_isComment, htoks⟩
  have hout := splitAtStop?_congr h.outside rfl rfl after₀
  have hfacing : Facing Same [] c₀ c := by
    refine ⟨hne₀, hne, ?_⟩
    rw [hahead₀, hahead]
    exact .of_nests hn hout hoff hk hsame
  exact (argument_parallel (expression_reaches levels) hfacing).fails hf

end Passed

/-- What was passed over and can be printed and passed over again. -/
structure Repeatable (levels : Nat) (toks : List Token) (stop : Token) (e : SyntaxError) : Prop
    extends Passed levels toks stop e where
  tidy : Tidy toks
  rereadable : ∀ t ∈ toks, t.Rereadable

namespace Repeatable

variable {levels : Nat} {toks : List Token} {stop : Token} {e : SyntaxError}

theorem solid (h : Repeatable levels toks stop e) : Solid toks := by
  intro t ht
  have heof : t.kind ≠ .eof := (h.rereadable t ht).isRead.ne_eof
  have hcomment := (h.rereadable t ht).not_isComment
  cases hk : t.kind <;> first | rfl | simp_all [TokenKind.isComment]

/-- Where the tokens stand they are passed over, with the same error. -/
theorem skips (levels : Nat) : Skips False (expression levels) (Repeatable levels) := by
  refine ⟨fun {toks stop e} h hk c after hahead => ?_, fun _ => id⟩
  have hcons : ∃ t rest, c.ahead = t :: rest := by
    rw [hahead]
    cases toks <;> exact ⟨_, _, rfl⟩
  obtain ⟨t, rest, hcons⟩ := hcons
  have hne := Cursor.advance_rest_ne_nil hcons
  have hcurrent := Cursor.advance_of_ahead_append hahead
  have htoks : List.Forall₂ (fun t t' : Token => t'.piece = t.piece ∧ t = t') toks toks :=
    List.forall₂_same.mpr fun t _ => ⟨rfl, rfl⟩
  obtain ⟨e', c', hf, hcause, htoken⟩ :=
    h.fails_alike h.tidy.nested htoks rfl (rfl : stop = stop) hne hcurrent
  obtain rfl : e' = e := by
    cases e
    cases e'
    simp only at hcause htoken
    rw [hcause, htoken]
  have hcomment : c.advance.current.kind.isComment = false := by
    have hmem : t ∈ c.ahead := hcons ▸ List.mem_cons_self
    rw [Cursor.advance_current, Cursor.peek_of_ahead hcons]
    simpa using (List.mem_filter.mp hmem).2
  have hsplit := splitAtStop?_congr h.outside rfl rfl after
  rw [← hcurrent] at hsplit
  obtain ⟨skipped, after', hrest, rfl, rfl⟩ := (split_ahead_iff hne hcomment).mp hsplit
  refine ⟨{ c'.record e' with rest := stop :: after' }, ?_, rfl, ?_⟩
  · exact argumentOrPlaceholder_yields_iff.mpr
      (.inr ⟨e', c', hf, recover_yields_iff.mpr ⟨_, _, hrest, rfl, rfl⟩⟩)
  · exact ((argument_steady (expression_steady levels)).of_fails hf).eof

/-- Tokens with the same pieces are passed over, too. -/
theorem reread (levels : Nat) :
    GapReread (fun _ tokens => .failed default (tokens.map Token.unplaced))
      (Repeatable levels) := by
  intro toks stop e h toks' stop' hp hk
  have hpieces : List.Forall₂ (fun t t' : Token => t'.piece = t.piece ∧ True) toks toks' :=
    forall₂_of_map_eq hp.symm fun _ _ _ _ heq => ⟨heq.symm, trivial⟩
  have hrereadable : ∀ t ∈ toks', t.Rereadable := by
    intro t ht
    have hmem : t.piece ∈ toks.map Token.piece := hp ▸ List.mem_map_of_mem ht
    obtain ⟨u, hu, heq⟩ := List.mem_map.mp hmem
    exact (h.rereadable u hu).of_piece heq.symm
  have hstop : stop'.kind = .mark .comma ∨ stop'.kind = .mark .rparen := hk ▸ h.stop_kind
  have hcomment : ∀ t ∈ toks' ++ [stop'], t.kind.isComment = false := by
    intro t ht
    rcases List.mem_append.mp ht with ht | ht
    · exact (hrereadable t ht).not_isComment
    · rw [List.mem_singleton.mp ht]
      rcases hstop with hs | hs <;> rw [hs] <;> rfl
  -- a cursor over nothing but these tokens
  let c : Cursor := ⟨toks' ++ [stop'], default, []⟩
  have hne : c.rest ≠ [] := by simp [c]
  have hcurrent : c.current.kind.isComment = false := by
    refine hcomment _ ?_
    cases toks' <;> simp [c, Cursor.current]
  have hahead : c.current :: c.ahead = toks' ++ stop' :: [] := by
    rw [← filter_rest hne hcurrent]
    exact List.filter_eq_self.mpr fun t ht => by simp [hcomment t ht]
  obtain ⟨e', c', hf, -, -⟩ := h.fails_alike h.tidy.nested hpieces hk trivial hne hahead
  have hkinds : toks'.map (·.kind) = toks.map (·.kind) := by
    have hfirst := congrArg (List.map Prod.fst) hp
    rwa [List.map_map, List.map_map] at hfirst
  have houtside := splitAtStop?_congr h.outside hkinds hk []
  have hagain : Passed levels toks' stop' e' :=
    ⟨houtside, c, c', [], hne, hcurrent, hahead, hf⟩
  refine ⟨e', ⟨hagain, h.tidy.congr hp, hrereadable⟩, ?_, ?_⟩
  · rintro rfl
    -- nothing was passed over, so the argument fails at the stop itself
    have hsound : SubSound False (expression levels) (Expression Gaps.none levels) :=
      expression_sound False.elim levels
    obtain ⟨e₁, c₁, hf₁, htoken⟩ := argument_refuses hsound (c := c) hstop
    rw [hf₁.unique hf]
    exact htoken
  · refine congrArg (Expr.failed default) ?_
    rw [← List.forall₂_eq_eq_eq, List.forall₂_map_left_iff, List.forall₂_map_right_iff]
    exact forall₂_of_map_eq hp fun _ _ _ _ heq => Token.unplaced_of_piece heq

theorem spelled (levels : Nat) : SpelledGap (Repeatable levels) := fun h _ =>
  h.tidy.spells h.rereadable

end Repeatable

/-- What is passed over and tidy can be printed and passed over again. -/
theorem repeats_repeatable :
    Repeats False (fun _ tokens => .failed default (tokens.map Token.unplaced)) Repeatable where
  skips := Repeatable.skips
  solid _ _ _ _ h := h.solid
  spelled := Repeatable.spelled
  reread := Repeatable.reread

end Grammar

open Grammar

/-- In a text, what is passed over and tidy can be passed over again: its tokens are not the last
ones, so that they were ended. -/
theorem repeatable_of_passed {source : String} {levels : Nat} {toks : List Token} {stop : Token}
    {e : SyntaxError} (h : Passed levels toks stop e)
    (hw : Within (tokenize source) (toks ++ [stop])) (ht : Tidy toks) :
    Repeatable levels toks stop e := by
  refine ⟨h, ht, fun t hmem => ⟨?_, h.not_isComment t hmem, ?_⟩⟩
  · exact tokenize_isRead (hw.subset (List.mem_append_left _ hmem))
  · have hended := (tokenize_ended source).sublist hw
    exact (List.pairwise_append.mp hended).2.2 t hmem stop (List.mem_singleton_self _)

/-- A text all of whose placeholders stand for tidy tokens is printed as one that is printed as it
stands. -/
theorem parse_render_stable {source : String}
    (h : ∀ node ∈ (Node.program (parse source).program).walk, Tidy node.skipped) :
    let printed := (parse source).program.render
    (parse printed).program.render = printed := by
  have hpassed := parse_lines_of_excuses passed_excuses source
  have hevery : (Node.program (parse source).program).EveryExpr fun e =>
      Tidy (Node.expr e).skipped := fun e he => h (.expr e) he
  rw [Node.everyExpr_of_not_isExpr rfl] at hevery
  have hlines : Lines True Repeatable _ (tokenize source) _ :=
    lines_narrowed (fun _ _ _ _ h hw ht => repeatable_of_passed h hw ht) hpassed
      (List.Sublist.refl _) fun s hs => hevery s.node (List.mem_map_of_mem hs)
  have hl : Legible (tokenize source) := fun _ ht => tokenize_isRead ht
  refine (parse_lines_repeated repeats_repeatable (fun e tokens => ?_) hlines hl rfl).2.2
  rw [Expr.render, Expr.render, List.map_map]
  rfl

theorem parse_render_stable_list :
    (∀ node ∈ (Node.program (parse "sum([2 ] * \"a\", ) + 1").program).walk, Tidy node.skipped) ∧
      (parse "sum([2 ] * \"a\", ) + 1").program.render = "sum([ 2 ] * \"a\", ) + 1" ∧
      (parse "sum([ 2 ] * \"a\", ) + 1").program.render = "sum([ 2 ] * \"a\", ) + 1" := by
  obtain ⟨htidy, hprinted⟩ :
      (∀ node ∈ (Node.program (parse "sum([2 ] * \"a\", ) + 1").program).walk, Tidy node.skipped) ∧
        (parse "sum([2 ] * \"a\", ) + 1").program.render = "sum([ 2 ] * \"a\", ) + 1" := by
    decide +kernel
  have hstable := parse_render_stable htidy
  rw [hprinted] at hstable
  exact ⟨htidy, hprinted, hstable⟩

/-- Behind an open brace the blank in front of the next token is printed once more each time. -/
theorem parse_render_unstable : ¬ ∀ source,
    let printed := (parse source).program.render
    (parse printed).program.render = printed := by
  intro h
  have hbrace := h "sum(\x7b1x)"
  revert hbrace
  decide +kernel

end PayFormula
