import PayFormula.Proofs.Text.Bytes
import PayFormula.Proofs.Token.Again
import PayFormula.Proofs.Token.Order

/-!
# Tokens tile the text

Every byte of a text belongs to one token or is a blank. A token keeps the piece
of text that its range cuts out, and the places of the first and the last byte
of it.
-/
namespace PayFormula

open Text

/-- The bytes of the characters that separate tokens. -/
def blankBytes : List UInt8 := [0x20, 0x09, 0x0d, 0x0a, 0x0b, 0x0c]

theorem encode_space {c : Char} (h : Lexeme.isSpace c) :
    ∃ byte ∈ blankBytes, String.utf8EncodeChar c = [byte] := by
  have hmem : c ∈ [' ', '\t', '\r', '\n', '\x0b', '\x0c'] := by simpa [Lexeme.isSpace] using h
  simp only [List.mem_cons, List.not_mem_nil, or_false] at hmem
  rcases hmem with rfl | rfl | rfl | rfl | rfl | rfl <;> exact ⟨_, by decide, rfl⟩

namespace Token

/-- The text of a token stands in the source at its range of bytes. -/
structure Stands (source : List Char) (t : Token) : Prop where
  cut : ∃ front back, source = front ++ (t.piece.text ++ back) ∧
    PayFormula.byteLength front = t.start
  stop : t.stop = t.start + PayFormula.byteLength t.piece.text

theorem scan_stands {index : LineIndex} {steps offset : Nat} {source front text : List Char}
    (hsource : source = front ++ text) (hfront : PayFormula.byteLength front = offset) {t : Token}
    (ht : t ∈ scan index steps offset text) : t.Stands source := by
  induction steps generalizing offset front text with
  | zero => cases ht
  | succ steps ih =>
    cases text with
    | nil => cases ht
    | cons c rest =>
      rw [scan] at ht
      split at ht
      · have hsource : source = (front ++ [c]) ++ rest := by rw [hsource]; simp
        refine ih hsource ?_ ht
        rw [byteLength_append, hfront, byteLength_cons, byteLength_nil, Nat.add_zero]
      · have happend := (Lexeme.read_splits c rest).append
        rw [← happend] at hsource
        rcases List.mem_cons.mp ht with rfl | ht
        · have htext := Lexeme.read_piece_text c rest
          refine ⟨⟨front, (Lexeme.read c rest).rest, ?_, hfront⟩, ?_⟩
          · exact hsource.trans (congrArg (fun piece => front ++ (piece ++ _)) htext.symm)
          · exact congrArg (fun piece => offset + PayFormula.byteLength piece) htext.symm
        · have hsource :
              source = (front ++ (Lexeme.read c rest).text) ++ (Lexeme.read c rest).rest := by
            rw [hsource]; simp
          refine ih hsource ?_ ht
          rw [byteLength_append, hfront]

/-- A byte that is in no token is that of a space. -/
theorem scan_covers {index : LineIndex} {steps offset : Nat} {text : List Char}
    (hsteps : text.length ≤ steps) {n place : Nat} (hplace : offset + n = place) {byte : UInt8}
    (hbyte : (bytes text)[n]? = some byte)
    (hout : ∀ t ∈ scan index steps offset text, ¬ (t.start ≤ place ∧ place < t.stop)) :
    byte ∈ blankBytes := by
  induction steps generalizing offset text n with
  | zero =>
    rw [List.length_eq_zero_iff.mp (Nat.le_zero.mp hsteps)] at hbyte
    cases hbyte
  | succ steps ih =>
    cases text with
    | nil => cases hbyte
    | cons c rest =>
      rw [scan] at hout
      rw [List.length_cons] at hsteps
      split at hout
      · rename_i hc
        obtain ⟨blank, hblank, hencoded⟩ := encode_space hc
        have hone : c.utf8Size = 1 := by
          rw [← String.length_utf8EncodeChar, hencoded, List.length_singleton]
        rw [bytes_cons, hencoded, List.singleton_append] at hbyte
        cases n with
        | zero =>
          cases hbyte
          exact hblank
        | succ n => exact ih (by omega) (by omega) hbyte hout
      · have hx := Lexeme.read_splits c rest
        obtain ⟨hhead, hout⟩ := List.forall_mem_cons.mp hout
        have hbehind : PayFormula.byteLength (Lexeme.read c rest).text ≤ n := by
          simp only [Lexeme.token] at hhead
          omega
        have hpos := List.length_pos_iff.mpr hx.nonempty
        have hlength := congrArg List.length hx.append
        rw [List.length_append, List.length_cons] at hlength
        rw [← hx.append, bytes_append, List.getElem?_append_right (by rwa [length_bytes]),
          length_bytes] at hbyte
        exact ih (by omega) (by omega) hbyte hout

namespace Stands

variable {source : List Char} {t : Token} (h : t.Stands source)
include h

theorem slice? : Text.slice? source t.start t.stop = some t.piece.text := by
  obtain ⟨⟨front, back, rfl, hfront⟩, hstop⟩ := h
  rw [hstop, ← hfront]
  exact slice?_append front _ back

/-- The bytes in the range of a token stand one behind the other from its first place on. -/
theorem place {offset : Nat} (ho : offset ≤ PayFormula.byteLength t.piece.text) :
    Text.place source (t.start + offset) =
      (Text.place source t.start).after ((bytes t.piece.text).take offset) := by
  obtain ⟨⟨front, back, rfl, hfront⟩, -⟩ := h
  rw [← hfront]
  exact place_append front _ back ho

theorem getElem?_bytes {offset : Nat} (ho : offset < PayFormula.byteLength t.piece.text) :
    (bytes source)[t.start + offset]? = (bytes t.piece.text)[offset]? := by
  obtain ⟨⟨front, back, rfl, hfront⟩, -⟩ := h
  rw [← length_bytes] at ho
  rw [← hfront, bytes_append, ← length_bytes, List.getElem?_append_right (Nat.le_add_right _ _),
    Nat.add_sub_cancel_left, bytes_append, List.getElem?_append_left ho]

end Stands

theorem tokenize_stands {source : String} {t : Token} (ht : t ∈ tokenize source) :
    t.Stands source.toList := scan_stands (List.nil_append _).symm rfl ht

/-- A token begins and ends at the places of its first and its last byte. -/
theorem tokenize_places {source : String} (hsize : source.utf8ByteSize < 0x100000000) {t : Token}
    (ht : t ∈ tokenize source) : t.first = Text.place source.toList t.start ∧
      t.last = Text.place source.toList (t.stop - 1) := by
  rw [← byteLength_toList] at hsize
  obtain ⟨-, hlt, hle, hfirst, hlast⟩ := scan_bounds (Nat.zero_add _) ht
  rw [hfirst, hlast]
  exact ⟨LineIndex.position_eq_place hsize (by omega), LineIndex.position_eq_place hsize (by omega)⟩

end Token

/-- The tokens of a text stand apart in increasing order, each on a range of bytes that cuts its
literal out of the text, a string with its quotes. All bytes outside these ranges are blanks. -/
theorem tokenize_tiles (source : String) (hsize : source.utf8ByteSize < 0x100000000) :
    (tokenize source).Pairwise (·.stop ≤ ·.start) ∧
      (∀ t ∈ tokenize source, t.start < t.stop ∧
        slice? source.toList t.start t.stop = some
          (if t.kind = .string then '"' :: t.literal.toList ++ ['"'] else t.literal.toList) ∧
        t.first = place source.toList t.start ∧ t.last = place source.toList (t.stop - 1)) ∧
      ∀ offset byte, (bytes source.toList)[offset]? = some byte →
        (∀ t ∈ tokenize source, ¬ (t.start ≤ offset ∧ offset < t.stop)) → byte ∈ blankBytes := by
  refine ⟨Token.scan_pairwise (Nat.zero_add _), fun t ht => ?_, fun offset byte hbyte hout => ?_⟩
  · refine ⟨(Token.start_lt_stop ht).1, ?_, Token.tokenize_places hsize ht⟩
    rw [(Token.tokenize_stands ht).slice?]
    split
    · rename_i hk
      rw [Piece.text_of_eq hk]
      rfl
    · rename_i hk
      rw [Piece.text_of_ne hk]
      rfl
  · exact Token.scan_covers le_rfl (Nat.zero_add offset) hbyte hout

/-- A string that runs over a line, an open brace and a character of two bytes. -/
theorem tokenize_tiles_lines :
    ("\"a\nb\" \x7b1\t\u00e9".utf8ByteSize < 0x100000000) ∧
      (tokenize "\"a\nb\" \x7b1\t\u00e9").map (fun t => (t.kind, t.start, t.stop)) =
        [(.string, 0, 5), (.illegal .illegalCharacter, 6, 9), (.illegal .illegalCharacter, 9, 11)] ∧
      ∀ t ∈ tokenize "\"a\nb\" \x7b1\t\u00e9",
        t.last = place "\"a\nb\" \x7b1\t\u00e9".toList (t.stop - 1) := by
  have hsize : "\"a\nb\" \x7b1\t\u00e9".utf8ByteSize < 0x100000000 := by decide +kernel
  refine ⟨hsize, by decide +kernel, fun t ht => ?_⟩
  exact ((tokenize_tiles _ hsize).2.1 t ht).2.2.2

end PayFormula
