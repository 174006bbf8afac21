import Mathlib.Data.List.Forall2
import PayFormula.Proofs.Token.Lexeme
import PayFormula.Token.Lexer

/-!
# Reading without places

Which kinds and literals the tokens of a text have does not depend on where the
text stands, so it is stated of texts alone: a text is read as pieces.
-/
namespace PayFormula

/-- The kind and the literal of a token. -/
abbrev Piece := TokenKind × String

def Token.piece (t : Token) : Piece := (t.kind, t.literal)

theorem Token.kind_of_piece {t : Token} {p : Piece} (h : t.piece = p) : t.kind = p.1 :=
  congrArg Prod.fst h

theorem Token.literal_of_piece {t : Token} {p : Piece} (h : t.piece = p) : t.literal = p.2 :=
  congrArg Prod.snd h

theorem forall₂_of_map_eq {α β γ : Type} {f : α → γ} {g : β → γ} {R : α → β → Prop} {l : List α}
    {l' : List β} (h : l.map f = l'.map g) (hR : ∀ a ∈ l, ∀ b ∈ l', f a = g b → R a b) :
    List.Forall₂ R l l' := by
  induction l generalizing l' with
  | nil =>
    rw [List.map_nil, eq_comm, List.map_eq_nil_iff] at h
    exact h ▸ .nil
  | cons a l ih =>
    cases l' with
    | nil => cases h
    | cons b l' =>
      obtain ⟨hab, h⟩ := List.cons.inj h
      refine .cons (hR a List.mem_cons_self b List.mem_cons_self hab) (ih h fun a ha b hb => ?_)
      exact hR a (List.mem_cons_of_mem _ ha) b (List.mem_cons_of_mem _ hb)

def Lexeme.piece (x : Lexeme) : Piece := (x.kind, String.ofList x.literal)

/-- A text is read as pieces. -/
inductive Reads : List Char → List Piece → Prop
  | nil : Reads [] []
  | space {c : Char} {rest : List Char} {ps : List Piece} :
      Lexeme.isSpace c → Reads rest ps → Reads (c :: rest) ps
  | lexeme {c : Char} {rest : List Char} {ps : List Piece} :
      Lexeme.isSpace c = false → Reads (Lexeme.read c rest).rest ps →
      Reads (c :: rest) ((Lexeme.read c rest).piece :: ps)

/-- Some text starts with the piece. -/
def Piece.IsRead (p : Piece) : Prop :=
  ∃ c rest, Lexeme.isSpace c = false ∧ (Lexeme.read c rest).piece = p

theorem Reads.unique {text : List Char} {ps ps' : List Piece} (h : Reads text ps)
    (h' : Reads text ps') : ps' = ps := by
  induction h generalizing ps' with
  | nil =>
    cases h'
    rfl
  | space hc _ ih =>
    cases h' with
    | space _ h' => exact ih h'
    | lexeme hc' _ => simp [hc] at hc'
  | lexeme hc _ ih =>
    cases h' with
    | space hc' _ => simp [hc] at hc'
    | lexeme _ h' => rw [ih h']

theorem Token.scan_nil {index : LineIndex} {steps offset : Nat} :
    scan index steps offset [] = [] := by
  cases steps <;> rfl

theorem scan_reads {index : LineIndex} {steps offset : Nat} {text : List Char}
    (h : text.length ≤ steps) :
    Reads text ((Token.scan index steps offset text).map Token.piece) := by
  induction steps generalizing offset text with
  | zero =>
    rw [List.length_eq_zero_iff.mp (Nat.le_zero.mp h)]
    exact .nil
  | succ steps ih =>
    cases text with
    | nil => exact .nil
    | cons c rest =>
      rw [List.length_cons] at h
      rw [Token.scan]
      split
      · rename_i hc
        exact .space hc (ih (by omega))
      · rename_i hc
        have hx := Lexeme.read_splits c rest
        have hpos := List.length_pos_iff.mpr hx.nonempty
        have hlen := congrArg List.length hx.append
        rw [List.length_append, List.length_cons] at hlen
        exact .lexeme (by simpa using hc) (ih (by omega))

/-- The pieces of a text are those of its tokens. -/
theorem tokenize_pieces_eq {source : String} {ps : List Piece} (h : Reads source.toList ps) :
    (tokenize source).map Token.piece = ps :=
  h.unique (scan_reads le_rfl)

theorem scan_isRead {index : LineIndex} {steps offset : Nat} {text : List Char} {t : Token}
    (ht : t ∈ Token.scan index steps offset text) : t.piece.IsRead := by
  induction steps generalizing offset text with
  | zero => cases ht
  | succ steps ih =>
    cases text with
    | nil => cases ht
    | cons c rest =>
      rw [Token.scan] at ht
      split at ht
      · exact ih ht
      · rename_i hc
        rcases List.mem_cons.mp ht with rfl | ht
        · exact ⟨c, rest, by simpa using hc, rfl⟩
        · exact ih ht

theorem tokenize_isRead {source : String} {t : Token} (ht : t ∈ tokenize source) :
    t.piece.IsRead := scan_isRead ht

end PayFormula
