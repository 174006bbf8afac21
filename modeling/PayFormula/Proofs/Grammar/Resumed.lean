import PayFormula.Proofs.Grammar.Joined
import PayFormula.Proofs.Reading.Enclosed

/-!
# Where reading goes on after a statement that failed

Recovery looks for a `;` outside brackets, and counts brackets from the token on
which reading has stopped. So the `;` it finds lies in no bracket that is opened
from there on, and every one it passes over lies in such a bracket. A bracket that
is opened before, in the part of the statement that was read, is not counted: the
`;` may lie in one if reading has stopped inside of it.
-/
namespace PayFormula

namespace Read

/-- The cursors from which the statements of a run are read, one after the other. -/
inductive Turn (start : Cursor) : Cursor → Prop
  | start : Turn start start
  | skip {c : Cursor} : Turn start c → c.rest ≠ [] → c.current.kind = .mark .semicolon →
      Turn start c.step
  | read {c c' : Cursor} {s : Statement} : Turn start c → c.rest ≠ [] →
      c.current.kind ≠ .mark .semicolon → Yields statement c s c' → Turn start c'.step
  | recover {c c' : Cursor} {e : SyntaxError} : Turn start c → c.rest ≠ [] →
      c.current.kind ≠ .mark .semicolon → Fails statement c e c' →
      Turn start (c'.record e).synchronize

/-- From each of its turns on a run does what a run does that starts there. -/
theorem Turn.statements {start c : Cursor} (h : Turn start c) :
    ∃ ss, statements start.rest.length start =
      (ss ++ (statements c.rest.length c).1, (statements c.rest.length c).2) := by
  -- a turn that leaves fewer tokens, with the statements it reads
  have hturn {c d : Cursor} (read : List Statement) (hlt : d.rest.length < c.rest.length)
      (hstep : ∀ steps, Read.statements (steps + 1) c =
        (read ++ (Read.statements steps d).1, (Read.statements steps d).2))
      (hrun : ∃ ss, Read.statements start.rest.length start =
        (ss ++ (Read.statements c.rest.length c).1, (Read.statements c.rest.length c).2)) :
      ∃ ss, Read.statements start.rest.length start =
        (ss ++ (Read.statements d.rest.length d).1, (Read.statements d.rest.length d).2) := by
    obtain ⟨ss, hss⟩ := hrun
    obtain ⟨steps, hsteps⟩ : ∃ steps, c.rest.length = steps + 1 := ⟨c.rest.length - 1, by omega⟩
    rw [hsteps, hstep, Grammar.statements_more (c := d) le_rfl (by omega)] at hss
    exact ⟨ss ++ read, by rw [hss, List.append_assoc]⟩
  induction h with
  | start => exact ⟨[], rfl⟩
  | @skip c _ hne hk ih =>
    refine hturn [] ?_ (fun steps => statements_of_semicolon hne hk) ih
    have := List.length_pos_iff.mpr hne
    rw [Cursor.step, List.length_tail]
    omega
  | @read c c' s _ hne hk hs ih =>
    refine hturn [s] ?_ (fun steps => statements_of_yields hne hk hs) ih
    have := List.length_pos_iff.mpr hne
    have := (statement_steady.of_yields hs).rest.length_le
    rw [Cursor.step, List.length_tail]
    omega
  | @recover c c' e _ hne hk hf ih =>
    refine hturn [] ?_ (fun steps => statements_of_fails hne hk hf) ih
    have hp := (statement_steady.of_fails hf).trans (c'.precedes_record e)
    exact (Grammar.synchronize_rest hp hne).2

/-- The cursor from which a text is read. -/
def startOf (source : String) : Cursor := ⟨tokenize source, .endOf (LineIndex.ofString source), []⟩

/-- When a text is read a statement fails: it starts at the first cursor, and reading stops at the
second one. -/
structure FailedTurn (source : String) (c : Cursor) (e : SyntaxError) (c' : Cursor) : Prop where
  turn : Turn (startOf source) c
  rest_ne_nil : c.rest ≠ []
  not_semicolon : c.current.kind ≠ .mark .semicolon
  fails : Fails statement c e c'

end Read

open Read

/-- Reading goes on behind the first `;` outside all brackets that are opened from the token on
which a statement has failed. This `;` lies in a bracket of the statement just if one that is open
there is closed behind it, and in none if reading has stopped outside the brackets. -/
theorem parse_resumes {source : String} {c c' : Cursor} {e : SyntaxError}
    (h : FailedTurn source c e c') {skipped after : List Token} {semicolon : Token}
    (hstop : splitAtStop? [.mark .semicolon] 0 c'.rest = some (skipped, semicolon :: after)) :
    ∃ before, c.rest = before ++ skipped ++ semicolon :: after ∧
      (∃ ss, (parse source).program.statements =
          ss ++ (statements after.length ⟨after, c.eof, c'.errors ++ [e]⟩).1 ∧
        (parse source).errors =
          (statements after.length ⟨after, c.eof, c'.errors ++ [e]⟩).2.errors) ∧
      ¬ Encloses skipped (semicolon :: after) ∧
      (∀ front t back, skipped = front ++ t :: back → t.kind = .mark .semicolon →
        Encloses front (t :: back)) ∧
      (Encloses (before ++ skipped) (semicolon :: after) ↔
        openAfter 0 (before ++ skipped) ≠ 0 ∧ closes after) ∧
      (openAfter 0 before = 0 → ¬ Encloses (before ++ skipped) (semicolon :: after)) := by
  have hp := statement_steady.of_fails h.fails
  obtain ⟨before, hbefore⟩ := hp.rest
  obtain ⟨hskipped, -, hzero, t, rest, hcons, hsemicolon⟩ := splitAtStop?_eq_some_iff.mp hstop
  obtain ⟨rfl, rfl⟩ := List.cons.inj hcons
  have hcloses : closes (semicolon :: after) = closes after := by
    have hnot : semicolon.kind ∉ closings := by
      rw [List.mem_singleton.mp hsemicolon]
      decide
    have hdepth := depthAfter_of_neither (by rw [List.mem_singleton.mp hsemicolon]; decide) hnot 0
    rw [closes, splitAtStop?, if_neg fun hstop => hnot hstop.2, hdepth, Option.isSome_map]
    rfl
  refine ⟨before, ?_, ?_, ?_, ?_, ?_, ?_⟩
  · rw [← hbefore, hskipped, List.append_assoc]
  · have hrun := (h.turn.recover h.rest_ne_nil h.not_semicolon h.fails).statements
    have hnext : (c'.record e).synchronize = ⟨after, c.eof, c'.errors ++ [e]⟩ := by
      rw [Cursor.synchronize, Cursor.record, hstop, hp.eof]
      rfl
    rw [hnext] at hrun
    obtain ⟨ss, hss⟩ := hrun
    exact ⟨ss, congrArg Prod.fst hss, congrArg (·.2.errors) hss⟩
  · exact fun hencloses => (encloses_iff.mp hencloses).1 hzero
  · rintro front t back rfl ht
    exact encloses_of_skipped hstop ht
  · rw [encloses_iff, hcloses]
  · intro hopen hencloses
    have hleft := (encloses_iff.mp hencloses).1
    rw [openAfter_append, hopen] at hleft
    exact hleft hzero

theorem parse_resumes_behind_parens : ∃ c e c' before skipped semicolon after,
    FailedTurn "(1 2); 3" c e c' ∧
      splitAtStop? [.mark .semicolon] 0 c'.rest = some (skipped, semicolon :: after) ∧
      c.rest = before ++ skipped ++ semicolon :: after ∧
      ¬ Encloses (before ++ skipped) (semicolon :: after) := by
  have hfailed : FailedTurn "(1 2); 3" (startOf "(1 2); 3")
      ⟨.unclosed .lparen, (tokenize "(1 2); 3").getD 2 default⟩ (startOf "(1 2); 3").step :=
    ⟨.start, by decide +kernel, by decide +kernel, rfl⟩
  have hstop : splitAtStop? [.mark .semicolon] 0 (startOf "(1 2); 3").step.rest =
      some (((tokenize "(1 2); 3").drop 1).take 3,
        (tokenize "(1 2); 3").getD 4 default :: (tokenize "(1 2); 3").drop 5) := by
    decide +kernel
  obtain ⟨before, hrest, -, -, -, hencloses, -⟩ := parse_resumes hfailed hstop
  refine ⟨_, _, _, before, _, _, _, hfailed, hstop, hrest, fun h => ?_⟩
  have hback := (hencloses.mp h).2
  revert hback
  decide +kernel

/-- Reading may go on inside a bracket of the statement that failed. -/
theorem parse_resumes_inside_parens : ¬ ∀ source c e c' before skipped semicolon after,
    FailedTurn source c e c' →
      splitAtStop? [.mark .semicolon] 0 c'.rest = some (skipped, semicolon :: after) →
      c.rest = before ++ skipped ++ semicolon :: after →
      ¬ Encloses (before ++ skipped) (semicolon :: after) := by
  intro h
  refine h "(1; 2); 3" (startOf "(1; 2); 3")
    ⟨.unclosed .lparen, (tokenize "(1; 2); 3").getD 2 default⟩ (startOf "(1; 2); 3").step
    ((tokenize "(1; 2); 3").take 1) (((tokenize "(1; 2); 3").drop 1).take 1)
    ((tokenize "(1; 2); 3").getD 2 default) ((tokenize "(1; 2); 3").drop 3)
    ⟨.start, by decide +kernel, by decide +kernel, rfl⟩ (by decide +kernel) (by decide +kernel) ?_
  rw [encloses_iff]
  decide +kernel

end PayFormula
