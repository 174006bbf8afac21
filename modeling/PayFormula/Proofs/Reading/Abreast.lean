import PayFormula.Proofs.Reading.Uncommented
import PayFormula.Proofs.Token.Tidy

/-!
# Runs side by side

What an argument is read as does not depend on the tokens behind the `,` or `)`
that ends it: no reader looks over a closing mark that is not its own, or over a
comma outside all brackets. So two runs over like tokens go side by side up to
such a wall, and both fail with like errors or both get as far as each other.

The closing marks owed say where the walls are. Each reader takes the two runs from
tokens that are alike, with some marks owed, to tokens that are alike with the same
marks owed. That recovery keeps this up is what the nesting of brackets is for: it
counts brackets without looking which is which, and stops at a wall of its call.
-/
namespace PayFormula

variable {Same : Token → Token → Prop}

/-- Two lists of tokens that are alike up to a wall, with some closing marks owed. -/
inductive Abreast (Same : Token → Token → Prop) : List Mark → List Token → List Token → Prop
  | wall {t t' : Token} {rest rest' : List Token} : t.kind.owedAfter? [] = none →
      t'.kind = t.kind → Same t t' → Abreast Same [] (t :: rest) (t' :: rest')
  | token {owed owed' : List Mark} {t t' : Token} {rest rest' : List Token} :
      t.kind.owedAfter? owed = some owed' → t.kind.isComment = false → t'.piece = t.piece →
      Same t t' → Abreast Same owed' rest rest' → Abreast Same owed (t :: rest) (t' :: rest')

namespace Abreast

variable {owed owed' : List Mark} {tokens tokens' : List Token}

theorem exists_cons (h : Abreast Same owed tokens tokens') :
    ∃ t rest t' rest', tokens = t :: rest ∧ tokens' = t' :: rest' := by
  cases h with
  | wall | token => exact ⟨_, _, _, _, rfl, rfl⟩

theorem head {t t' : Token} {rest rest' : List Token}
    (h : Abreast Same owed (t :: rest) (t' :: rest')) :
    t'.kind = t.kind ∧ Same t t' ∧ t.kind.isComment = false := by
  cases h with
  | wall hwall hk hsame =>
    refine ⟨hk, hsame, ?_⟩
    cases hkind : t.kind <;> simp_all [TokenKind.owedAfter?, TokenKind.isComment]
  | token _ hcomment hp hsame _ => exact ⟨Token.kind_of_piece hp, hsame, hcomment⟩

theorem tail {t t' : Token} {rest rest' : List Token}
    (h : Abreast Same owed (t :: rest) (t' :: rest')) (hk : t.kind.owedAfter? owed = some owed') :
    t'.piece = t.piece ∧ Abreast Same owed' rest rest' := by
  cases h with
  | wall hwall => simp [hwall] at hk
  | token howed _ hp _ hrest =>
    obtain rfl := Option.some.inj (howed.symm.trans hk)
    exact ⟨hp, hrest⟩

end Abreast

/-- Tokens passed over by recovery close what was opened among them, and nothing else: where a call
waits for its `)`, as where nothing is owed, they do not get as far as what is owed outside. -/
theorem TokenKind.owedAfter?_within {kind : TokenKind} {inner outer owed : List Mark}
    (houter : outer.head? ≠ some .rbracket) (h : kind.owedAfter? (inner ++ outer) = some owed)
    (hstop : ¬ (inner.length = 0 ∧ kind ∈ [.mark .comma, .mark .rparen])) :
    ∃ inner', owed = inner' ++ outer ∧ kind.depthAfter inner.length = inner'.length := by
  unfold owedAfter? at h
  unfold depthAfter
  split at h
  · exact ⟨.rparen :: inner, (Option.some.inj h).symm, rfl⟩
  · exact ⟨.rbracket :: inner, (Option.some.inj h).symm, rfl⟩
  · split at h
    · cases inner with
      | nil => simp at hstop
      | cons m inner => exact ⟨inner, (Option.some.inj h).symm, rfl⟩
    · cases h
  · split at h
    · rename_i hhead
      cases inner with
      | nil => exact absurd hhead houter
      | cons m inner => exact ⟨inner, (Option.some.inj h).symm, rfl⟩
    · cases h
  · split at h
    · cases h
    · exact ⟨inner, (Option.some.inj h).symm, rfl⟩
  · refine ⟨inner, (Option.some.inj h).symm, ?_⟩
    split <;> first | rfl | contradiction

namespace Abreast

/-- Within a call recovery stops at a wall, on both sides at the same one. -/
theorem split (inner : List Mark) {owed : List Mark} {tokens tokens' : List Token}
    (h : Abreast Same (inner ++ .rparen :: owed) tokens tokens') :
    ∃ skipped skipped' stop stop' after after',
      splitAtStop? [.mark .comma, .mark .rparen] inner.length tokens =
        some (skipped, stop :: after) ∧
      splitAtStop? [.mark .comma, .mark .rparen] inner.length tokens' =
        some (skipped', stop' :: after') ∧
      Abreast Same (.rparen :: owed) (stop :: after) (stop' :: after') := by
  generalize hmarks : inner ++ .rparen :: owed = marks at h
  induction h generalizing inner with
  | wall => simp at hmarks
  | @token _ owed' t t' rest rest' howed hcomment hp hsame hrest ih =>
    subst hmarks
    have hk : t'.kind = t.kind := Token.kind_of_piece hp
    by_cases hstop : inner.length = 0 ∧ t.kind ∈ [.mark .comma, .mark .rparen]
    · obtain rfl := List.length_eq_zero_iff.mp hstop.1
      refine ⟨[], [], t, t', rest, rest', ?_, ?_, .token howed hcomment hp hsame hrest⟩
      · rw [splitAtStop?, if_pos hstop]
      · rw [splitAtStop?, if_pos (hk ▸ hstop)]
    · obtain ⟨inner', rfl, hinner⟩ := TokenKind.owedAfter?_within (by simp) howed hstop
      obtain ⟨skipped, skipped', stop, stop', after, after', hs, hs', hafter⟩ := ih _ rfl
      refine ⟨t :: skipped, t' :: skipped', stop, stop', after, after', ?_, ?_, hafter⟩
      · rw [splitAtStop?, if_neg hstop, hinner, hs]
        rfl
      · rw [splitAtStop?, if_neg (hk ▸ hstop), hk, hinner, hs']
        rfl

/-- Nested tokens go abreast of ones with the same pieces up to a wall. The stop of a call behind
them is one, if there is none before. -/
theorem of_nests {skipped skipped' after after' : List Token} {stop stop' : Token}
    (hn : nests owed skipped)
    (hstop : splitAtStop? [.mark .comma, .mark .rparen] owed.length (skipped ++ stop :: after) =
      some (skipped, stop :: after))
    (hskipped : List.Forall₂ (fun t t' => t.kind.isComment = false ∧ t'.piece = t.piece ∧ Same t t')
      skipped skipped') (hk : stop'.kind = stop.kind) (hsame : Same stop stop') :
    Abreast Same owed (skipped ++ stop :: after) (skipped' ++ stop' :: after') := by
  induction hskipped generalizing owed with
  | nil =>
    rw [List.nil_append, splitAtStop?] at hstop
    split at hstop
    · rename_i hwall
      obtain rfl := List.length_eq_zero_iff.mp hwall.1
      refine .wall ?_ hk hsame
      rcases List.mem_cons.mp hwall.2 with hcomma | hr
      · rw [hcomma]
        rfl
      · rw [List.mem_singleton.mp hr]
        rfl
    · obtain ⟨_, -, heq⟩ := Option.map_eq_some_iff.mp hstop
      cases (Prod.mk.inj heq).1
  | @cons t t' skipped skipped' ht _ ih =>
    obtain ⟨hcomment, hp, ht⟩ := ht
    rw [List.cons_append, splitAtStop?] at hstop
    split at hstop
    · cases (Prod.mk.inj (Option.some.inj hstop)).1
    · rename_i hwall
      obtain ⟨⟨inner, rest⟩, hrest, heq⟩ := Option.map_eq_some_iff.mp hstop
      obtain ⟨hinner, rfl⟩ := Prod.mk.inj heq
      obtain rfl := (List.cons.inj hinner).2
      rw [nests] at hn
      cases howed : t.kind.owedAfter? owed with
      | none =>
        rw [howed] at hn
        obtain rfl := List.isEmpty_iff.mp hn
        exact .wall howed (Token.kind_of_piece hp) ht
      | some owed' =>
        rw [howed] at hn
        rw [← List.append_nil owed] at howed
        obtain ⟨inner, rfl, hdepth⟩ := TokenKind.owedAfter?_within (by simp) howed hwall
        simp only [List.append_nil] at howed hn
        rw [hdepth] at hrest
        exact .token howed hcomment hp ht (ih hn hrest)

end Abreast

namespace Read

/-- Both cursors stand on tokens that are alike from there on. -/
structure Facing (Same : Token → Token → Prop) (owed : List Mark) (c c' : Cursor) : Prop where
  rest_ne_nil : c.rest ≠ []
  rest_ne_nil' : c'.rest ≠ []
  abreast : Abreast Same owed (c.current :: c.ahead) (c'.current :: c'.ahead)

/-- The tokens ahead of both cursors are alike. -/
def Past (Same : Token → Token → Prop) (owed : List Mark) (c c' : Cursor) : Prop :=
  Abreast Same owed c.ahead c'.ahead

variable {owed owed' : List Mark} {c c' : Cursor}

/-- What is left without the comments. -/
theorem filter_rest (h : c.rest ≠ []) (hk : c.current.kind.isComment = false) :
    c.rest.filter (!·.kind.isComment) = c.current :: c.ahead := by
  obtain ⟨t, rest, hr⟩ := List.exists_cons_of_ne_nil h
  have ht : t.kind.isComment = false := by rwa [Cursor.current, hr] at hk
  rw [Cursor.current, Cursor.ahead, hr, List.filter_cons_of_pos (by simp [ht])]
  rfl

/-- Where recovery of a call goes is told by the tokens without the comments. -/
theorem split_ahead_iff {skipped after : List Token} {stop : Token} (hne : c.rest ≠ [])
    (hk : c.current.kind.isComment = false) :
    splitAtStop? [.mark .comma, .mark .rparen] 0 (c.current :: c.ahead) =
        some (skipped, stop :: after) ↔
      ∃ skipped' after',
        splitAtStop? [.mark .comma, .mark .rparen] 0 c.rest = some (skipped', stop :: after') ∧
          skipped = skipped'.filter (!·.kind.isComment) ∧
          after = after'.filter (!·.kind.isComment) := by
  have hstops : ∀ kind ∈ [TokenKind.mark .comma, .mark .rparen], kind.isComment = false := by
    simp [TokenKind.isComment]
  rw [← filter_rest hne hk, splitAtStop?_filter hstops, Option.map_eq_some_iff]
  constructor
  · rintro ⟨⟨skipped', rest⟩, hrest, heq⟩
    obtain ⟨t, after', rfl, ht⟩ := splitAtStop?_stop hrest
    obtain ⟨hskipped, heq⟩ := Prod.mk.inj heq
    rw [List.filter_cons_of_pos (by simp [hstops _ ht])] at heq
    obtain ⟨rfl, hafter⟩ := List.cons.inj heq
    exact ⟨skipped', after', hrest, hskipped.symm, hafter.symm⟩
  · rintro ⟨skipped', after', hrest, rfl, rfl⟩
    obtain ⟨_, _, heq, ht⟩ := splitAtStop?_stop hrest
    obtain ⟨rfl, -⟩ := List.cons.inj heq
    refine ⟨_, hrest, ?_⟩
    rw [Prod.map_apply, List.filter_cons_of_pos (by simp [hstops _ ht])]

namespace Facing

theorem current (h : Facing Same owed c c') :
    c'.current.kind = c.current.kind ∧ Same c.current c'.current :=
  ⟨h.abreast.head.1, h.abreast.head.2.1⟩

theorem past (h : Facing Same owed c c') (owed' : List Mark)
    (hk : c.current.kind.owedAfter? owed = some owed') :
    c'.current.piece = c.current.piece ∧ Past Same owed' c c' := h.abreast.tail hk

/-- Recovery of a call goes to the same place on both sides. -/
theorem split (h : Facing Same (.rparen :: owed) c c') :
    ∃ skipped skipped' stop stop' after after',
      splitAtStop? [.mark .comma, .mark .rparen] 0 c.rest = some (skipped, stop :: after) ∧
      splitAtStop? [.mark .comma, .mark .rparen] 0 c'.rest = some (skipped', stop' :: after') ∧
      Abreast Same (.rparen :: owed) (stop :: after.filter (!·.kind.isComment))
        (stop' :: after'.filter (!·.kind.isComment)) := by
  obtain ⟨hkind, -, hcomment⟩ := h.abreast.head
  obtain ⟨_, _, stop, stop', _, _, hs, hs', hafter⟩ := h.abreast.split []
  obtain ⟨skipped, after, hrest, -, rfl⟩ := (split_ahead_iff h.rest_ne_nil hcomment).mp hs
  obtain ⟨skipped', after', hrest', -, rfl⟩ :=
    (split_ahead_iff h.rest_ne_nil' (hkind ▸ hcomment)).mp hs'
  exact ⟨skipped, skipped', stop, stop', after, after', hrest, hrest', hafter⟩

end Facing

namespace Past

variable (h : Past Same owed c c')
include h

theorem advance : Facing Same owed c.advance c'.advance := by
  obtain ⟨t, rest, t', rest', hr, hr'⟩ := h.exists_cons
  refine ⟨Cursor.advance_rest_ne_nil hr, Cursor.advance_rest_ne_nil hr', ?_⟩
  rw [Cursor.advance_of_ahead hr, Cursor.advance_of_ahead hr', ← hr, ← hr']
  exact h

theorem peek : c'.peek.kind = c.peek.kind ∧ Same c.peek c'.peek := h.advance.current

theorem next (owed' : List Mark) (hk : c.peek.kind.owedAfter? owed = some owed') :
    c'.peek.piece = c.peek.piece ∧ Past Same owed' c.advance c'.advance := h.advance.past owed' hk

theorem rest_ne_nil : c.rest ≠ [] := by
  obtain ⟨t, rest, t', rest', hr, -⟩ := h.exists_cons
  exact Cursor.rest_ne_nil_of_ahead hr

theorem rest_ne_nil' : c'.rest ≠ [] := by
  obtain ⟨t, rest, t', rest', -, hr⟩ := h.exists_cons
  exact Cursor.rest_ne_nil_of_ahead hr

end Past

/-- Where a token is left, a round of a repetition can be spent on it. -/
theorem exists_round {n : Nat} (h : c.rest ≠ []) (hn : c.rest.length ≤ n) :
    ∃ k, n = k + 1 ∧ c.advance.rest.length ≤ k := by
  have hpos := List.length_pos_iff.mpr h
  have hle := c.length_following_le
  refine ⟨n - 1, by omega, ?_⟩
  rw [Cursor.advance_rest]
  omega

variable {α β : Type}

/-- Two runs end alike: both fail, with errors that are alike, or neither does. -/
inductive Parallel (Same : Token → Token → Prop) (P : α → α → Cursor → Cursor → Prop) :
    Except SyntaxError α × Cursor → Except SyntaxError α × Cursor → Prop
  | ok {a a' : α} {c c' : Cursor} : P a a' c c' → Parallel Same P (.ok a, c) (.ok a', c')
  | error {e e' : SyntaxError} {c c' : Cursor} : e'.cause = e.cause → Same e.token e'.token →
      Parallel Same P (.error e, c) (.error e', c')

namespace Parallel

variable {P : α → α → Cursor → Cursor → Prop} {Q : β → β → Cursor → Cursor → Prop}

theorem fails {run run' : Except SyntaxError α × Cursor} (h : Parallel Same P run run')
    {e : SyntaxError} {c : Cursor} (hf : run = (.error e, c)) :
    ∃ e' c', run' = (.error e', c') ∧ e'.cause = e.cause ∧ Same e.token e'.token := by
  subst hf
  cases h with
  | error hcause hsame => exact ⟨_, _, rfl, hcause, hsame⟩

/-- Runs in sequence, the second ones after values that the first ones yield. -/
theorem bind_of_yields {x x' : Read α} {f f' : α → Read β} (h : Parallel Same P (x c) (x' c'))
    (hf : ∀ a a' d d', P a a' d d' → Yields x c a d → Yields x' c' a' d' →
      Parallel Same Q (f a d) (f' a' d')) :
    Parallel Same Q ((x >>= f) c) ((x' >>= f') c') := by
  rw [bind_run, bind_run]
  generalize hrun : x c = run at h
  generalize hrun' : x' c' = run' at h
  cases h with
  | ok hP => exact hf _ _ _ _ hP hrun hrun'
  | error hcause hsame => exact .error hcause hsame

theorem bind {x x' : Read α} {f f' : α → Read β} (h : Parallel Same P (x c) (x' c'))
    (hf : ∀ a a' d d', P a a' d d' → Parallel Same Q (f a d) (f' a' d')) :
    Parallel Same Q ((x >>= f) c) ((x' >>= f') c') :=
  h.bind_of_yields fun a a' d d' hP _ _ => hf a a' d d' hP

theorem pure {b b' : β} (h : Q b b' c c') :
    Parallel Same Q ((Pure.pure b : Read β) c) ((Pure.pure b' : Read β) c') := .ok h

theorem fail {cause cause' : SyntaxError.Cause} {t t' : Token} (hcause : cause' = cause)
    (hsame : Same t t') :
    Parallel Same Q ((Read.fail cause t : Read β) c) ((Read.fail cause' t' : Read β) c') :=
  .error hcause hsame

theorem current {f f' : Token → Read β} (h : Parallel Same Q (f c.current c) (f' c'.current c')) :
    Parallel Same Q ((Read.current >>= f) c) ((Read.current >>= f') c') := h

theorem peek {f f' : Token → Read β} (h : Parallel Same Q (f c.peek c) (f' c'.peek c')) :
    Parallel Same Q ((Read.peek >>= f) c) ((Read.peek >>= f') c') := h

theorem advance {f f' : Unit → Read β} (h : Parallel Same Q (f () c.advance) (f' () c'.advance)) :
    Parallel Same Q ((Read.advance >>= f) c) ((Read.advance >>= f') c') := h

theorem remaining {f f' : Nat → Read β}
    (h : Parallel Same Q (f c.rest.length c) (f' c'.rest.length c')) :
    Parallel Same Q ((Read.remaining >>= f) c) ((Read.remaining >>= f') c') := h

theorem ite {p p' : Prop} [Decidable p] [Decidable p'] (hp : p' ↔ p) {x x' y y' : Read β}
    (hx : p → Parallel Same Q (x c) (x' c')) (hy : ¬ p → Parallel Same Q (y c) (y' c')) :
    Parallel Same Q ((if p then x else y) c) ((if p' then x' else y') c') := by
  by_cases h : p
  · rw [if_pos h, if_pos (hp.mpr h)]
    exact hx h
  · rw [if_neg h, if_neg (mt hp.mp h)]
    exact hy h

end Parallel

/-- Two runs of the reader end alike and, if they do not fail, past tokens in front of which the
given marks are owed. -/
abbrev Reaches (Same : Token → Token → Prop) (owed : List Mark) (x x' : Read α) (c c' : Cursor) :
    Prop := Parallel Same (fun _ _ => Past Same owed) (x c) (x' c')

theorem pure_reaches (h : Past Same owed c c') (a a' : α) :
    Reaches Same owed (pure a) (pure a') c c' := .pure h

theorem fail_reaches {cause cause' : SyntaxError.Cause} {t t' : Token} (hcause : cause' = cause)
    (hsame : Same t t') :
    Reaches Same owed (fail cause t : Read α) (fail cause' t') c c' := .fail hcause hsame

section Tokens

variable {t t' : Token}

theorem number_reaches (h : Past Same owed c c') (hp : t'.piece = t.piece) (hsame : Same t t') :
    Reaches Same owed (number t) (number t') c c' := by
  unfold number
  have hl : t'.literal = t.literal := Token.literal_of_piece hp
  rw [hl]
  split
  · exact pure_reaches h _ _
  · exact fail_reaches rfl hsame

theorem date_reaches (h : Past Same owed c c') (hp : t'.piece = t.piece) (hsame : Same t t') :
    Reaches Same owed (date t) (date t') c c' := by
  unfold date
  have hl : t'.literal = t.literal := Token.literal_of_piece hp
  rw [hl]
  split
  · exact pure_reaches h _ _
  · exact fail_reaches rfl hsame

theorem time_reaches (h : Past Same owed c c') (hp : t'.piece = t.piece) (hsame : Same t t') :
    Reaches Same owed (time t) (time t') c c' := by
  unfold time
  have hl : t'.literal = t.literal := Token.literal_of_piece hp
  rw [hl]
  split
  · exact pure_reaches h _ _
  · exact fail_reaches rfl hsame

end Tokens

/-- A name is the same on both sides. -/
theorem ident_parallel (h : Past Same owed c c') (hp : c'.current.piece = c.current.piece)
    (hsame : Same c.current c'.current) :
    Parallel Same (fun i i' d d' => i'.name = i.name ∧ Past Same owed d d') (ident c)
      (ident c') := by
  have hl : c'.current.literal = c.current.literal := Token.literal_of_piece hp
  refine .current (.ite (by rw [hl]) (fun _ => .fail rfl hsame) fun _ => ?_)
  exact .ite (by rw [hl]) (fun _ => .fail rfl hsame) fun _ => .pure ⟨hl, h⟩

theorem expect_reaches {kind : TokenKind} (h : Past Same owed c c')
    (hk : kind.owedAfter? owed = some owed') :
    Reaches Same owed' (expect kind) (expect kind) c c' := by
  refine .peek (.ite (by rw [h.peek.1]) (fun hkind => ?_) fun _ => .fail rfl h.peek.2)
  exact .advance (.pure (h.next owed' (hkind ▸ hk)).2)

theorem expectClosing_reaches {opening closing : Mark} (h : Past Same owed c c')
    (hk : (TokenKind.mark closing).owedAfter? owed = some owed') :
    Reaches Same owed' (expectClosing opening closing) (expectClosing opening closing) c c' := by
  refine .peek (.ite (by rw [h.peek.1]) (fun hkind => ?_) fun _ => .fail rfl h.peek.2)
  exact .advance (.pure (h.next owed' (hkind ▸ hk)).2)

theorem expectName_parallel (h : Past Same owed c c') :
    Parallel Same (fun i i' d d' => i'.name = i.name ∧ Past Same owed d d') (expectName c)
      (expectName c') := by
  obtain ⟨hkind, hsame⟩ := h.peek
  refine .peek ?_
  rw [hkind]
  cases hk : c.peek.kind with
  | ident =>
    obtain ⟨hp, hpast⟩ := h.next owed (by rw [hk]; rfl)
    exact .advance (ident_parallel hpast hp hsame)
  | mark m =>
    refine .ite ?_ (fun _ => .fail rfl hsame) fun _ => .fail rfl hsame
    refine and_congr_right fun hm => ?_
    -- only what may be spelled as a word is looked at closer
    have howed : c.peek.kind.owedAfter? owed = some owed := by
      rw [hk]
      rcases List.mem_cons.mp hm with rfl | hm
      · rfl
      rcases List.mem_cons.mp hm with rfl | hm
      · rfl
      rw [List.mem_singleton.mp hm]
      rfl
    rw [Token.literal_of_piece (h.next owed howed).1]
    rfl
  | _ => exact .fail rfl hsame

theorem nameClause_reaches (h : Past Same owed c c') :
    Reaches Same owed nameClause nameClause c c' :=
  .current ((expectName_parallel h).bind fun _ _ _ _ hpast => .pure hpast.2)

theorem strings_reaches {n n' : Nat} (h : Past Same owed c c') (hne : owed ≠ [])
    (hn : c.rest.length ≤ n) (hn' : c'.rest.length ≤ n') :
    Reaches Same owed (strings n) (strings n') c c' := by
  induction n generalizing n' c c' with
  | zero => exact absurd (List.length_eq_zero_iff.mp (Nat.le_zero.mp hn)) h.rest_ne_nil
  | succ n ih =>
    obtain ⟨_, hround, hleft⟩ := exists_round h.rest_ne_nil hn
    obtain ⟨n', rfl, hleft'⟩ := exists_round h.rest_ne_nil' hn'
    refine .peek (.ite (by rw [h.peek.1]) (fun hs => ?_) fun _ => .pure h)
    have h₁ := (h.next owed (by rw [hs]; rfl)).2
    refine .advance (.peek (.ite (by rw [h₁.peek.1]) (fun hcomma => ?_) fun _ => .pure h₁))
    have h₂ := (h₁.next owed (by rw [hcomma]; simp [TokenKind.owedAfter?, hne])).2
    have hlen := c.advance.precedes_advance.rest.length_le
    have hlen' := c'.advance.precedes_advance.rest.length_le
    refine .advance ((ih h₂ ?_ ?_).bind fun _ _ _ _ hpast => .pure hpast) <;> omega

theorem list_reaches (h : Facing Same owed c c') (hk : c.current.kind = .mark .lbracket) :
    Reaches Same owed list list c c' := by
  have hpast := (h.past (.rbracket :: owed) (by rw [hk]; rfl)).2
  have hpeek := hpast.peek
  refine .current (.peek (.ite (by rw [hpeek.1]) (fun _ => ?_) fun _ => .fail rfl hpeek.2))
  refine .remaining ((strings_reaches hpast (by simp) le_rfl le_rfl).bind fun _ _ _ _ hpast => ?_)
  exact (expectClosing_reaches hpast rfl).bind fun _ _ _ _ hpast => .pure hpast

section Sub

/-- Readers of expressions that take two runs side by side. -/
structure SubReaches (Same : Token → Token → Prop) (sub : SubReader) : Prop where
  steady : ∀ power, Steady (sub power)
  reaches : ∀ {power owed c c'}, Facing Same owed c c' →
    Reaches Same owed (sub power) (sub power) c c'

variable {sub : SubReader} (hs : SubReaches Same sub)
include hs

theorem binding_reaches (h : Facing Same owed c c') (hk : c.current.kind = .keyword .varWord) :
    Reaches Same owed (binding sub) (binding sub) c c' := by
  have hpast := (h.past owed (by rw [hk]; rfl)).2
  refine .current ((expectName_parallel hpast).bind fun _ _ _ _ hname => ?_)
  refine (expect_reaches hname.2 rfl).bind fun _ _ _ _ heq => ?_
  refine .advance ((hs.reaches heq.advance).bind fun _ _ _ _ hvalue => ?_)
  refine .peek (.ite (by rw [hvalue.peek.1]) (fun hsemi => ?_) fun _ => .fail ?_ hvalue.peek.2)
  · exact .advance (.pure (hvalue.next owed (by rw [hsemi]; rfl)).2)
  · rw [hname.1]

theorem bindings_parallel {n n' : Nat} (h : Facing Same owed c c') (hn : c.rest.length ≤ n)
    (hn' : c'.rest.length ≤ n') :
    Parallel Same (fun bs bs' d d' => bs'.isEmpty = bs.isEmpty ∧ Facing Same owed d d')
      (bindings sub n c) (bindings sub n' c') := by
  induction n generalizing n' c c' with
  | zero => exact absurd (List.length_eq_zero_iff.mp (Nat.le_zero.mp hn)) h.rest_ne_nil
  | succ n ih =>
    obtain ⟨n', rfl, -⟩ := exists_round h.rest_ne_nil' hn'
    refine .current (.ite (by rw [h.current.1]) (fun hk => ?_) fun _ => .pure ⟨rfl, h⟩)
    refine (binding_reaches hs h hk).bind_of_yields fun _ _ d d' hpast hy hy' => .advance ?_
    have hlen := ((binding_steady hs.steady).of_yields hy).rest.length_le.trans hn
    have hlen' := ((binding_steady hs.steady).of_yields hy').rest.length_le.trans hn'
    obtain ⟨_, hround, hleft⟩ := exists_round hpast.rest_ne_nil hlen
    obtain ⟨_, hround', hleft'⟩ := exists_round hpast.rest_ne_nil' hlen'
    refine (ih hpast.advance ?_ ?_).bind fun _ _ _ _ hfacing => .pure ⟨rfl, hfacing.2⟩ <;> omega

theorem block_reaches (h : Facing Same owed c c') :
    Reaches Same owed (block sub) (block sub) c c' := by
  refine .remaining ((bindings_parallel hs h le_rfl le_rfl).bind fun _ _ _ _ hbs => ?_)
  exact (hs.reaches hbs.2).bind fun _ _ _ _ hpast => .pure hpast

theorem paren_reaches (h : Facing Same owed c c') (hk : c.current.kind = .mark .lparen) :
    Reaches Same owed (paren sub) (paren sub) c c' := by
  have hpast := (h.past (.rparen :: owed) (by rw [hk]; rfl)).2
  refine .current (.peek (.ite (by rw [hpast.peek.1]) (fun hr => ?_) fun _ => ?_))
  · exact .advance (.pure (hpast.next owed (by rw [hr]; rfl)).2)
  · refine .advance ((block_reaches hs hpast.advance).bind fun _ _ _ _ hblock => ?_)
    exact (expectClosing_reaches hblock rfl).bind fun _ _ _ _ hpast => .pure hpast

theorem macroArgs_reaches {n n' : Nat} (h : Past Same owed c c') (hne : owed ≠ [])
    (hn : c.rest.length ≤ n) (hn' : c'.rest.length ≤ n') :
    Reaches Same owed (macroArgs sub n) (macroArgs sub n') c c' := by
  induction n generalizing n' c c' with
  | zero => exact absurd (List.length_eq_zero_iff.mp (Nat.le_zero.mp hn)) h.rest_ne_nil
  | succ n ih =>
    obtain ⟨_, hround, hleft⟩ := exists_round h.rest_ne_nil hn
    obtain ⟨n', rfl, hleft'⟩ := exists_round h.rest_ne_nil' hn'
    refine .advance ((hs.reaches h.advance).bind_of_yields fun _ _ d d' harg hy hy' => ?_)
    refine .peek (.ite (by rw [harg.peek.1]) (fun hcomma => ?_) fun _ => .pure harg)
    have hnext := (harg.next owed (by rw [hcomma]; simp [TokenKind.owedAfter?, hne])).2
    have hlen := ((hs.steady _).of_yields hy).rest.length_le.trans hleft
    have hlen' := ((hs.steady _).of_yields hy').rest.length_le.trans hleft'
    have hrest := d.precedes_advance.rest.length_le
    have hrest' := d'.precedes_advance.rest.length_le
    refine .advance ((ih hnext ?_ ?_).bind fun _ _ _ _ hpast => .pure hpast) <;> omega

theorem macroCall_reaches (h : Facing Same owed c c') (hk : c.current.kind = .mark .dollar) :
    Reaches Same owed (macroCall sub) (macroCall sub) c c' := by
  have hpast := (h.past owed (by rw [hk]; rfl)).2
  have hclose {d d' : Cursor} {f f' : Token → Token → Expr} (h : Past Same (.rparen :: owed) d d') :
      Reaches Same owed
        (expectClosing .lparen .rparen >>= fun r =>
          expectClosing .dollar .dollar >>= fun closing => pure (f r closing))
        (expectClosing .lparen .rparen >>= fun r =>
          expectClosing .dollar .dollar >>= fun closing => pure (f' r closing)) d d' := by
    refine (expectClosing_reaches h rfl).bind fun _ _ _ _ hr => ?_
    exact (expectClosing_reaches hr rfl).bind fun _ _ _ _ hpast => .pure hpast
  refine .current ((expectName_parallel hpast).bind fun _ _ _ _ hname => ?_)
  refine (expect_reaches hname.2 rfl).bind fun _ _ _ _ hl => ?_
  refine .peek (.ite (by rw [hl.peek.1]) (fun _ => ?_) fun _ => ?_)
  · exact (pure_reaches hl [] []).bind fun _ _ _ _ hpast => hclose hpast
  · have hargs := macroArgs_reaches hs hl (by simp) le_rfl le_rfl
    exact .remaining (hargs.bind fun _ _ _ _ hpast => hclose hpast)

/-- What follows an argument is a `,` or `)` on both sides. -/
theorem argument_parallel (h : Facing Same owed c c') :
    Parallel Same (fun _ _ d d' => Past Same owed d d' ∧
      (d.peek.kind = .mark .comma ∨ d.peek.kind = .mark .rparen)) (argument sub c)
      (argument sub c') := by
  refine (block_reaches hs h).bind fun _ _ _ _ hpast => .peek ?_
  refine .ite (by rw [hpast.peek.1]) (fun hstop => .pure ⟨hpast, hstop⟩) fun _ => ?_
  exact .fail rfl hpast.peek.2

/-- Of a call's argument both sides are left at the `,` or `)` that ends it, whether it is read or
passed over. -/
theorem argumentOrPlaceholder_parallel (h : Facing Same (.rparen :: owed) c c') :
    Parallel Same (fun _ _ d d' => Facing Same (.rparen :: owed) d d' ∧
      (d.current.kind = .mark .comma ∨ d.current.kind = .mark .rparen))
      (argumentOrPlaceholder sub c) (argumentOrPlaceholder sub c') := by
  have hargument := argument_parallel hs h
  rcases yields_or_fails (argument sub) c with ⟨arg, d, hy⟩ | ⟨e, d, hf⟩
  · rw [hy] at hargument
    generalize hrun : argument sub c' = run at hargument
    cases hargument with
    | ok hpast =>
      rw [argumentOrPlaceholder_of_yields hy, argumentOrPlaceholder_of_yields hrun]
      exact .ok ⟨hpast.1.advance, hpast.2⟩
  · obtain ⟨e', d', hf', -, -⟩ := hargument.fails hf
    obtain ⟨skipped, skipped', stop, stop', after, after', hsplit, hsplit', hafter⟩ := h.split
    have hrecover {c d : Cursor} {e : SyntaxError} {skipped after : List Token} {stop : Token}
        (hf : Fails (argument sub) c e d)
        (hsplit : splitAtStop? [.mark .comma, .mark .rparen] 0 c.rest =
          some (skipped, stop :: after)) :
        argumentOrPlaceholder sub c = (.ok (.failed e (skipped.filter (!·.kind.isComment))),
          { d.record e with rest := stop :: after }) :=
      argumentOrPlaceholder_yields_iff.mpr
        (.inr ⟨e, d, hf, recover_yields_iff.mpr ⟨_, _, hsplit, rfl, rfl⟩⟩)
    rw [hrecover hf hsplit, hrecover hf' hsplit']
    obtain ⟨t, rest, hstop, hk⟩ := splitAtStop?_stop hsplit
    obtain ⟨rfl, rfl⟩ := List.cons.inj hstop
    have hcurrent : stop.kind = .mark .comma ∨ stop.kind = .mark .rparen := by simpa using hk
    exact .ok ⟨⟨List.cons_ne_nil _ _, List.cons_ne_nil _ _, hafter⟩, hcurrent⟩

theorem arguments_reaches {n n' : Nat} (h : Past Same (.rparen :: owed) c c')
    (hn : c.rest.length ≤ n) (hn' : c'.rest.length ≤ n') :
    Reaches Same owed (arguments sub n) (arguments sub n') c c' := by
  induction n generalizing n' c c' with
  | zero => exact absurd (List.length_eq_zero_iff.mp (Nat.le_zero.mp hn)) h.rest_ne_nil
  | succ n ih =>
    obtain ⟨_, hround, hleft⟩ := exists_round h.rest_ne_nil hn
    obtain ⟨n', rfl, hleft'⟩ := exists_round h.rest_ne_nil' hn'
    refine .advance ((argumentOrPlaceholder_parallel hs h.advance).bind_of_yields ?_)
    rintro _ _ d d' ⟨hfacing, hstop⟩ hy hy'
    refine .current (.ite (by rw [hfacing.current.1]) (fun hr => ?_) fun hr => ?_)
    · exact .pure (hfacing.past owed (by rw [hr]; rfl)).2
    · have hcomma := hstop.resolve_right hr
      have hpast := (hfacing.past (.rparen :: owed) (by rw [hcomma]; rfl)).2
      have hsteady := argumentOrPlaceholder_steady hs.steady
      have hlen := (hsteady.of_yields hy).rest.length_le
      have hlen' := (hsteady.of_yields hy').rest.length_le
      refine (ih hpast ?_ ?_).bind fun _ _ _ _ hpast => .pure hpast <;> omega

theorem call_reaches (h : Facing Same owed c c') (hk : c.current.kind = .builtin) :
    Reaches Same owed (call sub) (call sub) c c' := by
  have hpast := (h.past owed (by rw [hk]; rfl)).2
  refine .current ((expect_reaches hpast rfl).bind fun _ _ _ _ hl => ?_)
  refine .peek (.ite (by rw [hl.peek.1]) (fun hr => ?_) fun _ => ?_)
  · exact .advance (.pure (hl.next owed (by rw [hr]; rfl)).2)
  · exact .remaining ((arguments_reaches hs hl le_rfl le_rfl).bind fun _ _ _ _ hpast => .pure hpast)

theorem unary_reaches (op : UnaryOp) (h : Past Same owed c c') :
    Reaches Same owed (unary op sub) (unary op sub) c c' :=
  .current (.advance ((hs.reaches h.advance).bind fun _ _ _ _ hpast => .pure hpast))

theorem filter_reaches (h : Past Same owed c c') :
    Reaches Same owed (filter sub) (filter sub) c c' :=
  .current (.advance ((hs.reaches h.advance).bind fun _ _ _ _ hpast => .pure hpast))

theorem overClause_reaches (h : Past Same owed c c') :
    Reaches Same owed (overClause sub) (overClause sub) c c' := by
  refine .current (.advance ((hs.reaches h.advance).bind fun _ _ _ _ hcontext => ?_))
  refine .peek (.ite (by rw [hcontext.peek.1]) (fun halias => ?_) fun _ => .pure hcontext)
  have hpast := (hcontext.next owed (by rw [halias]; rfl)).2
  exact .advance ((nameClause_reaches hpast).bind fun _ _ _ _ hpast => .pure hpast)

theorem orderBy_reaches (h : Past Same owed c c') :
    Reaches Same owed (orderBy sub) (orderBy sub) c c' := by
  refine .current ((expect_reaches h rfl).bind fun _ _ _ _ hword => ?_)
  refine .advance ((hs.reaches hword.advance).bind fun _ _ d d' hkey => .peek ?_)
  rw [hkey.peek.1]
  change Reaches Same owed _ _ d d'
  split
  · rename_i hk
    exact .advance (.pure (hkey.next owed (by rw [hk]; rfl)).2)
  · rename_i hk
    exact .advance (.pure (hkey.next owed (by rw [hk]; rfl)).2)
  · exact .pure hkey

theorem primary_reaches (h : Facing Same owed c c') :
    Reaches Same owed (primary sub) (primary sub) c c' := by
  obtain ⟨hkind, hsame⟩ := h.current
  -- a token that opens and closes nothing
  have hplain (hk : c.current.kind.owedAfter? owed = some owed) := h.past owed hk
  refine .current ?_
  rw [hkind]
  change Reaches Same owed _ _ c c'
  split
  · rename_i hk
    obtain ⟨hp, hpast⟩ := hplain (by rw [hk]; rfl)
    exact number_reaches hpast hp hsame
  · rename_i hk
    obtain ⟨hp, hpast⟩ := hplain (by rw [hk]; rfl)
    exact number_reaches hpast hp hsame
  · rename_i hk
    obtain ⟨hp, hpast⟩ := hplain (by rw [hk]; rfl)
    exact (ident_parallel hpast hp hsame).bind fun _ _ _ _ hpast => .pure hpast.2
  · rename_i hk
    exact .pure (hplain (by rw [hk]; rfl)).2
  · rename_i hk
    exact .pure (hplain (by rw [hk]; rfl)).2
  · rename_i hk
    exact .pure (hplain (by rw [hk]; rfl)).2
  · rename_i hk
    obtain ⟨hp, hpast⟩ := hplain (by rw [hk]; rfl)
    exact date_reaches hpast hp hsame
  · rename_i hk
    obtain ⟨hp, hpast⟩ := hplain (by rw [hk]; rfl)
    exact time_reaches hpast hp hsame
  · rename_i hk
    exact unary_reaches hs _ (hplain (by rw [hk]; rfl)).2
  · rename_i hk
    exact unary_reaches hs _ (hplain (by rw [hk]; rfl)).2
  · rename_i hk
    exact paren_reaches hs h hk
  · rename_i hk
    exact macroCall_reaches hs h hk
  · rename_i hk
    exact call_reaches hs h hk
  · rename_i hk
    exact overClause_reaches hs (hplain (by rw [hk]; rfl)).2
  · rename_i hk
    exact filter_reaches hs (hplain (by rw [hk]; rfl)).2
  · rename_i hk
    exact orderBy_reaches hs (hplain (by rw [hk]; rfl)).2
  · rename_i hk
    have hclause := nameClause_reaches (hplain (by rw [hk]; rfl)).2
    exact hclause.bind fun _ _ _ _ hpast => .pure hpast
  · rename_i hk
    have hclause := nameClause_reaches (hplain (by rw [hk]; rfl)).2
    exact hclause.bind fun _ _ _ _ hpast => .pure hpast
  · rename_i hk
    exact (list_reaches h hk).bind fun _ _ _ _ hpast => .pure hpast
  · exact .fail rfl hsame

omit hs in
theorem member_reaches (left left' : Expr) (h : Past Same owed c c') :
    Reaches Same owed (member left) (member left') c c' := by
  refine .current (.peek ?_)
  rw [h.peek.1]
  change Reaches Same owed _ _ c c'
  split
  · rename_i hk
    exact .advance ((list_reaches h.advance hk).bind fun _ _ _ _ hpast => .pure hpast)
  · rename_i hk
    have hpast := (h.next owed (by rw [hk]; rfl)).2
    exact .advance ((nameClause_reaches hpast).bind fun _ _ _ _ hpast => .pure hpast)
  · exact .fail rfl h.peek.2

theorem operator_reaches (left left' : Expr) (h : Facing Same owed c c') :
    Reaches Same owed (operator sub left) (operator sub left') c c' := by
  obtain ⟨hkind, hsame⟩ := h.current
  refine .current ?_
  rw [hkind]
  change Reaches Same owed _ _ c c'
  split
  · rename_i hk
    exact member_reaches left left' (h.past owed (by rw [hk]; rfl)).2
  · rename_i m hk
    cases hop : BinaryOp.ofMark? m with
    | none => exact .fail rfl hsame
    | some op =>
      obtain rfl := BinaryOp.ofMark?_eq_some_iff.mp hop
      have hpast := (h.past owed (by rw [hk]; cases op <;> rfl)).2
      exact .advance ((hs.reaches hpast.advance).bind fun _ _ _ _ hpast => .pure hpast)
  · exact .fail rfl hsame

end Sub

theorem subReaches_and_chain (levels : Nat) :
    SubReaches Same (expression levels) ∧ ∀ {power left left' owed c c'}, Past Same owed c c' →
      Reaches Same owed (chain levels power left) (chain levels power left') c c' := by
  induction levels with
  | zero =>
    refine ⟨⟨expression_steady 0, fun h => ?_⟩, fun h => ?_⟩
    · rw [expression]
      exact .current (.fail rfl h.current.2)
    · rw [chain, chain]
      refine .peek (.ite (by rw [h.peek.1]) (fun _ => ?_) fun _ => .pure h)
      exact .advance (.current (.fail rfl h.peek.2))
  | succ levels ih =>
    refine ⟨⟨expression_steady _, fun h => ?_⟩, fun {_ left left' _ _ _} h => ?_⟩
    · rw [expression]
      exact (primary_reaches ih.1 h).bind fun _ _ _ _ hpast => ih.2 hpast
    · rw [chain, chain]
      refine .peek (.ite (by rw [h.peek.1]) (fun _ => .advance ?_) fun _ => .pure h)
      exact (operator_reaches ih.1 left left' h.advance).bind fun _ _ _ _ hpast => ih.2 hpast

/-- Readers of expressions take two runs side by side. -/
theorem expression_reaches (levels : Nat) : SubReaches Same (expression levels) :=
  (subReaches_and_chain levels).1

end Read

end PayFormula
