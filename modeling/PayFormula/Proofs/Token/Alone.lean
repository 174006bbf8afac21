import PayFormula.Proofs.Token.Tiling

/-!
# Tokens on their own

The kind of a token does not depend on what stands around it: the bytes in its
range are a text of that one token. What ends a lexeme in the middle of a text
may be a character behind it, but nothing continues it at the end of a text.
-/
namespace PayFormula

namespace Token

/-- The text of a lexeme is scanned as this one lexeme. -/
theorem scan_alone {index : LineIndex} {steps offset : Nat} {c : Char} {rest : List Char}
    (hc : Lexeme.isSpace c = false) (hsteps : (Lexeme.read c rest).text.length ≤ steps) :
    scan index steps offset (Lexeme.read c rest).text =
      [(Lexeme.read c rest).token index offset] := by
  have htext := (Lexeme.read_splits c rest).text_eq
  have hread := Lexeme.read_alone c rest
  generalize Lexeme.read c rest = x at htext hread hsteps
  rw [htext] at hsteps ⊢
  cases steps with
  | zero => cases hsteps
  | succ steps =>
    simp only [scan, hc, hread, scan_nil, Bool.false_eq_true, ↓reduceIte]
    rfl

/-- What a piece was read from is a text of one token, which is that piece. -/
theorem exists_tokenize {p : Piece} (hp : p.IsRead) :
    ∃ u, tokenize (String.ofList p.text) = [u] ∧ u.piece = p ∧ u.start = 0 ∧
      u.stop = (String.ofList p.text).utf8ByteSize := by
  obtain ⟨c, rest, hc, rfl⟩ := hp
  rw [Lexeme.read_piece_text]
  refine ⟨(Lexeme.read c rest).token (.ofChars (Lexeme.read c rest).text) 0, ?_, rfl, rfl, ?_⟩
  · rw [tokenize, String.toList_ofList]
    exact scan_alone hc le_rfl
  · rw [← byteLength_toList, String.toList_ofList]
    exact Nat.zero_add _

end Token

/-- Every token is read alone from the bytes in its range, as one token with its kind and its
literal, and no byte of them is left out. -/
theorem tokenize_alone {source : String} {t : Token} (ht : t ∈ tokenize source) :
    ∃ text u, Text.slice? source.toList t.start t.stop = some text.toList ∧ tokenize text = [u] ∧
      u.kind = t.kind ∧ u.literal = t.literal ∧ u.start = 0 ∧ u.stop = text.utf8ByteSize := by
  obtain ⟨u, hu, hpiece, hstart, hstop⟩ := Token.exists_tokenize (tokenize_isRead ht)
  refine ⟨String.ofList t.piece.text, u, ?_, hu, Token.kind_of_piece hpiece,
    Token.literal_of_piece hpiece, hstart, hstop⟩
  rw [String.toList_ofList]
  exact (Token.tokenize_stands ht).slice?

/-- A brace that nothing closes, with the blank behind it. -/
theorem tokenize_alone_openBrace :
    let t : Token := ⟨.illegal .illegalCharacter, "\x7b1 ", ⟨0, 0⟩, ⟨0, 2⟩, 0, 3⟩
    t ∈ tokenize "\x7b1 x" ∧ ∃ text u,
      Text.slice? "\x7b1 x".toList t.start t.stop = some text.toList ∧ tokenize text = [u] ∧
        u.kind = t.kind ∧ u.literal = t.literal ∧ u.start = 0 ∧ u.stop = text.utf8ByteSize := by
  intro t
  have ht : t ∈ tokenize "\x7b1 x" := by decide +kernel
  exact ⟨ht, tokenize_alone ht⟩

end PayFormula
