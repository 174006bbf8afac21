import Mathlib.Data.List.TakeWhile
import PayFormula.Proofs.Reading.Steady

/-!
# The tokens between two places

Readers look past comments. So what a run has read is the tokens between the
place where it started and the one where it ended, with the comments left out.
What is ahead of a cursor is told without them, too.
-/
namespace PayFormula

/-- Neither a comment nor the end of a text. -/
def TokenKind.isSolid : TokenKind → Bool
  | .eof | .lineComment | .blockComment => false
  | _ => true

theorem TokenKind.not_isComment_of_isSolid {kind : TokenKind} (h : kind.isSolid) :
    kind.isComment = false := by
  cases kind <;> first | rfl | cases h

/-- From the first list to the last one, which ends it, stand the given tokens and comments. -/
def Between (before toks after : List Token) : Prop :=
  ∃ raw, before = raw ++ after ∧ raw.filter (!·.kind.isComment) = toks

/-- The first token that is no comment, the end token if there is none. -/
def nextToken (eof : Token) (tokens : List Token) : Token :=
  (tokens.dropWhile (·.kind.isComment)).headD eof

theorem Cursor.peek_eq (c : Cursor) : c.peek = nextToken c.eof c.rest.tail := rfl

namespace Between

variable {before middle after toks toks' : List Token} {t : Token}

theorem refl (tokens : List Token) : Between tokens [] tokens := ⟨[], rfl, rfl⟩

theorem trans (h : Between before toks middle) (h' : Between middle toks' after) :
    Between before (toks ++ toks') after := by
  obtain ⟨raw, rfl, rfl⟩ := h
  obtain ⟨raw', rfl, rfl⟩ := h'
  exact ⟨raw ++ raw', by simp, by simp⟩

theorem comments (tokens : List Token) :
    Between tokens [] (tokens.dropWhile (·.kind.isComment)) := by
  refine ⟨tokens.takeWhile (·.kind.isComment), List.takeWhile_append_dropWhile.symm, ?_⟩
  rw [List.filter_eq_nil_iff]
  intro t ht
  simpa using List.mem_takeWhile_imp ht

theorem single (ht : t.kind.isSolid) (tokens : List Token) : Between (t :: tokens) [t] tokens :=
  ⟨[t], rfl, by simp [TokenKind.not_isComment_of_isSolid ht]⟩

/-- The next token at the start is the first of those between, or the next one at the end. -/
theorem headD_eq (h : Between before toks after) (eof : Token) :
    toks.headD (nextToken eof after) = nextToken eof before := by
  obtain ⟨raw, rfl, rfl⟩ := h
  induction raw with
  | nil => rfl
  | cons t raw ih =>
    cases ht : t.kind.isComment with
    | true => simpa [nextToken, ht] using ih
    | false => simp [nextToken, ht]

end Between

namespace Cursor

variable {c c' : Cursor} {toks after : List Token}

theorem rest_eq_of_isSolid (he : c.eof.kind = .eof) (hk : c.current.kind.isSolid) :
    c.rest = c.current :: c.rest.tail := by
  cases hr : c.rest with
  | nil =>
    simp only [current, hr, List.headD_nil, he] at hk
    cases hk
  | cons t rest => simp [current, hr]

theorem following_eq_of_isSolid (he : c.eof.kind = .eof) (hk : c.peek.kind.isSolid) :
    c.following = c.peek :: c.following.tail := rest_eq_of_isSolid (c := c.advance) he hk

/-- What is read from the current token on starts with it. -/
theorem between_current (he : c.eof.kind = .eof) (hk : c.current.kind.isSolid) :
    Between c.rest [c.current] c.rest.tail := by
  have h := Between.single hk c.rest.tail
  rwa [← rest_eq_of_isSolid he hk] at h

theorem between_following (c : Cursor) : Between c.rest.tail [] c.following := .comments _

theorem peek_not_isComment (he : c.eof.kind = .eof) : c.peek.kind.isComment = false := by
  have h := List.head?_dropWhile_not (fun t : Token => t.kind.isComment) c.rest.tail
  change (c.following.headD c.eof).kind.isComment = false
  cases hf : c.following with
  | nil => rw [List.headD_nil, he]; rfl
  | cons t rest =>
    rw [following] at hf
    rw [hf] at h
    simpa using h

theorem between_peek (he : c.eof.kind = .eof) (hk : c.peek.kind.isSolid) :
    Between c.rest.tail [c.peek] c.advance.rest.tail :=
  c.between_following.trans (between_current (c := c.advance) he hk)

/-- The next token before some are read is the first of them. -/
theorem headD_eq_peek (h : Between c.rest.tail toks c'.rest.tail) (he : c'.eof = c.eof) :
    toks.headD c'.peek = c.peek := by
  rw [c.peek_eq, c'.peek_eq, he]
  exact h.headD_eq c.eof

end Cursor

/-! ### Ahead of a cursor -/

/-- The tokens behind the current one that are no comments. -/
def Cursor.ahead (c : Cursor) : List Token := c.rest.tail.filter (!·.kind.isComment)

namespace Cursor

variable {c : Cursor} {t : Token} {after : List Token}

theorem headD_filter (eof : Token) (tokens : List Token) :
    (tokens.filter (!·.kind.isComment)).headD eof = nextToken eof tokens := by
  induction tokens with
  | nil => rfl
  | cons t tokens ih =>
    cases h : t.kind.isComment with
    | true => simpa [nextToken, h] using ih
    | false => simp [nextToken, h]

theorem peek_eq_headD (c : Cursor) : c.peek = c.ahead.headD c.eof := (headD_filter _ _).symm

theorem advance_ahead (c : Cursor) : c.advance.ahead = c.ahead.tail := by
  unfold ahead
  rw [advance_rest, following]
  induction c.rest.tail with
  | nil => rfl
  | cons t tokens ih =>
    cases h : t.kind.isComment with
    | true => simpa [h] using ih
    | false => simp [h]

theorem length_ahead_le (c : Cursor) : c.ahead.length ≤ c.rest.length :=
  (List.length_filter_le _ _).trans (by simp)

theorem rest_ne_nil_of_ahead (h : c.ahead = t :: after) : c.rest ≠ [] := by
  intro hnil
  rw [ahead, hnil] at h
  cases h

theorem advance_rest_ne_nil (h : c.ahead = t :: after) : c.advance.rest ≠ [] := by
  rw [advance_rest, following, ne_eq, List.dropWhile_eq_nil_iff]
  intro hcomments
  have hmem : t ∈ c.rest.tail.filter (!·.kind.isComment) := by
    rw [← ahead, h]
    exact List.mem_cons_self
  obtain ⟨htail, hcomment⟩ := List.mem_filter.mp hmem
  rw [hcomments t htail] at hcomment
  cases hcomment

theorem peek_of_ahead (h : c.ahead = t :: after) : c.peek = t := by
  rw [peek_eq_headD, h]
  rfl

theorem advance_ahead_of_ahead (h : c.ahead = t :: after) : c.advance.ahead = after := by
  rw [advance_ahead, h]
  rfl

/-- Advancing moves the next token under the cursor. -/
theorem advance_of_ahead (h : c.ahead = t :: after) :
    c.advance.current :: c.advance.ahead = t :: after := by
  rw [advance_current, peek_of_ahead h, advance_ahead_of_ahead h]

theorem advance_of_ahead_append {toks : List Token} (h : c.ahead = toks ++ t :: after) :
    c.advance.current :: c.advance.ahead = toks ++ t :: after := by
  cases toks with
  | nil => exact advance_of_ahead h
  | cons u toks => exact advance_of_ahead h

end Cursor

end PayFormula
