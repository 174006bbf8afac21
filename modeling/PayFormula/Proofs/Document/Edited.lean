import PayFormula.Document.Rename
import PayFormula.Proofs.Reading.Run
import PayFormula.Proofs.Token.Order
import PayFormula.Proofs.Token.Respelled

/-!
# Edited texts

An editor puts the new text of an edit in the place of all bytes of its span.
When edits replace identifiers by a name, the tokens of the text that comes out
are those of the old one, with the name in the places of the edits.
-/
namespace PayFormula

/-- A lexeme that takes up all of a text and is an identifier. -/
theorem isIdentText_of_read {c : Char} {rest : List Char} (hk : (Lexeme.read c rest).kind = .ident)
    (hrest : (Lexeme.read c rest).rest = []) : IsIdentText (c :: rest) := by
  have hstart := Lexeme.isWordStart_of_kind hk
  rw [Lexeme.read_word hstart] at hk hrest
  have htext : (Lexeme.ofWord c rest).text = c :: rest := by
    have happend := (Lexeme.ofWord_splits c rest).append
    rwa [hrest, List.append_nil] at happend
  rw [Lexeme.ofWord_kind, htext] at hk
  refine ⟨⟨c, rfl, hstart⟩, fun d hd => ?_, hk⟩
  rw [List.tail_cons, ← (List.cons.inj htext).2] at hd
  exact List.mem_takeWhile_imp hd

/-- A token that takes up all of a text and is an identifier. -/
theorem isIdentText_of_tokenize {text : String} {t : Token} (h : tokenize text = [t])
    (hk : t.kind = .ident) (hlength : t.byteLength = text.utf8ByteSize) :
    IsIdentText text.toList ∧ t.literal = text := by
  rw [← byteLength_toList] at hlength
  have hscan :
      Token.scan (LineIndex.ofChars text.toList) text.toList.length 0 text.toList = [t] := h
  cases hchars : text.toList with
  | nil =>
    rw [hchars] at hscan
    cases hscan
  | cons c rest =>
    rw [hchars] at hscan hlength
    rw [List.length_cons, Token.scan] at hscan
    split at hscan
    · -- a token behind a space is shorter than the text
      have hc := c.utf8Size_pos
      have hend : 0 + c.utf8Size + byteLength rest = byteLength (c :: rest) := by
        rw [Nat.zero_add, byteLength_cons]
      have hbounds := Token.scan_bounds hend (hscan ▸ List.mem_singleton_self t)
      rw [Token.byteLength] at hlength
      omega
    · obtain ⟨rfl, -⟩ := List.cons.inj hscan
      have happend := (Lexeme.read_splits c rest).append
      have hrest : (Lexeme.read c rest).rest = [] := by
        by_contra hne
        have hpos := byteLength_pos hne
        have hlen := congrArg byteLength happend
        have hspan : byteLength (Lexeme.read c rest).text = byteLength (c :: rest) := by
          rw [← hlength]
          exact (Nat.add_sub_cancel_left 0 _).symm
        rw [byteLength_append] at hlen
        omega
      refine ⟨isIdentText_of_read hk hrest, ?_⟩
      have hstring : (Lexeme.read c rest).kind ≠ .string := fun hs => by
        cases hs.symm.trans hk
      change String.ofList (Lexeme.read c rest).literal = text
      rw [hrest, List.append_nil] at happend
      rw [Lexeme.literal_eq_text hstring, happend, ← hchars, String.ofList_toList]

/-- A name that is accepted is one identifier and not the blank one. -/
theorem of_validateName {name : String} (h : validateName name = .ok ()) :
    IsIdentText name.toList ∧ name ≠ "_" := by
  unfold validateName at h
  split at h
  · rename_i t htokens
    split at h
    · cases h
    · rename_i hlength
      split at h
      · rename_i hk
        obtain ⟨htext, hliteral⟩ := isIdentText_of_tokenize htokens hk (not_not.mp hlength)
        refine ⟨htext, ?_⟩
        split at h
        · cases h
        · rename_i hblank
          rwa [hliteral] at hblank
      · split at h <;> cases h
  · cases h

theorem Token.isName_of_text {t : Token} (hk : t.kind = .ident) (h : IsIdentText t.literal.toList)
    (hblank : t.literal ≠ "_") : t.IsName := by
  refine ⟨hk, fun hempty => ?_, hblank, ?_⟩
  · obtain ⟨c, hc, -⟩ := h.start
    rw [hempty] at hc
    cases hc
  · have hclassify := h.kind
    rw [String.ofList_toList] at hclassify
    exact Word.classify_eq_ident_iff.mp hclassify

namespace TextEdit

/-- What becomes of a piece of text whose first byte is the one at `offset`: a character in the span
of an edit is left out, and the new text stands where the first one was. -/
def edited (index : LineIndex) (edits : List TextEdit) : Nat → List Char → List Char
  | _, [] => []
  | offset, c :: text =>
    let here := match edits.find? (·.span.contains (index.position offset)) with
      | some e => if e.span.first = index.position offset then e.newText.toList else []
      | none => [c]
    here ++ edited index edits (offset + c.utf8Size) text

/-- The text with all edits made. -/
def applyAll (edits : List TextEdit) (source : String) : String :=
  String.ofList (edited (.ofString source) edits 0 source.toList)

variable {index : LineIndex} {edits : List TextEdit} {offset : Nat} {front back : List Char}

/-- Bytes that no edit spans stay as they are. -/
theorem edited_kept (h : ∀ o, offset ≤ o → o < offset + byteLength front →
    ∀ e ∈ edits, ¬ e.span.contains (index.position o)) :
    edited index edits offset (front ++ back) =
      front ++ edited index edits (offset + byteLength front) back := by
  induction front generalizing offset with
  | nil => rfl
  | cons c front ih =>
    have hc := c.utf8Size_pos
    rw [byteLength_cons] at h ⊢
    have hnone : edits.find? (·.span.contains (index.position offset)) = none :=
      List.find?_eq_none.mpr (h offset le_rfl (by omega))
    rw [List.cons_append, edited, hnone, ih fun o ho hlt => h o (by omega) (by omega),
      Nat.add_assoc]
    rfl

/-- The later bytes of an edit are left out. -/
theorem edited_left_out {e : TextEdit} (h : ∀ o, offset ≤ o → o < offset + byteLength front →
    edits.find? (·.span.contains (index.position o)) = some e ∧ e.span.first ≠ index.position o) :
    edited index edits offset (front ++ back) =
      edited index edits (offset + byteLength front) back := by
  induction front generalizing offset with
  | nil => rfl
  | cons c front ih =>
    have hc := c.utf8Size_pos
    rw [byteLength_cons] at h ⊢
    obtain ⟨hfind, hfirst⟩ := h offset le_rfl (by omega)
    rw [List.cons_append, edited, hfind, ih fun o ho hlt => h o (by omega) (by omega),
      Nat.add_assoc]
    simp only [if_neg hfirst]
    rfl

/-- The bytes of an edit make way for its new text. -/
theorem edited_replaced {e : TextEdit} (hne : front ≠ [])
    (h : ∀ o, offset ≤ o → o < offset + byteLength front →
      edits.find? (·.span.contains (index.position o)) = some e ∧
        (e.span.first = index.position o ↔ o = offset)) :
    edited index edits offset (front ++ back) =
      e.newText.toList ++ edited index edits (offset + byteLength front) back := by
  cases front with
  | nil => exact absurd rfl hne
  | cons c front =>
    have hc := c.utf8Size_pos
    rw [byteLength_cons] at h ⊢
    obtain ⟨hfind, hfirst⟩ := h offset le_rfl (by omega)
    have hlater : edited index edits (offset + c.utf8Size) (front ++ back) =
        edited index edits (offset + c.utf8Size + byteLength front) back := by
      refine edited_left_out (e := e) fun o ho hlt => ?_
      obtain ⟨hfind, hfirst⟩ := h o (by omega) (by omega)
      exact ⟨hfind, fun heq => by have := hfirst.mp heq; omega⟩
    rw [List.cons_append, edited, hfind, hlater, Nat.add_assoc]
    simp only [if_pos (hfirst.mpr rfl)]

end TextEdit

/-- The edits replace identifiers of a text by a name. -/
structure TextEdit.Renaming (source : List Char) (name : String) (edits : List TextEdit) :
    Prop where
  pairwise : edits.Pairwise (·.span.last < ·.span.first)
  newText : ∀ e ∈ edits, e.newText = name
  token : ∀ e ∈ edits, ∃ t ∈ Token.ofChars source, t.kind = .ident ∧ t.span = e.span

/-- The piece that is read where a token was, once some identifiers have been replaced. -/
def Token.pieceAfter (edits : List TextEdit) (name : String) (t : Token) : Piece :=
  (t.kind, if t.span ∈ edits.map TextEdit.span then name else t.literal)

namespace TextEdit.Renaming

open Token

variable {source : List Char} {name : String} {edits : List TextEdit}
variable (h : Renaming source name edits) (hsize : byteLength source < 0x100000000)
include h hsize

theorem kind {t : Token} (ht : t ∈ ofChars source) (hedited : t.span ∈ edits.map TextEdit.span) :
    t.kind = .ident := by
  obtain ⟨e, he, hspan⟩ := List.mem_map.mp hedited
  obtain ⟨t', ht', hk, hspan'⟩ := h.token e he
  rwa [eq_of_span_eq hsize ht ht' (hspan.symm.trans hspan'.symm)]

/-- In the text of a token that is edited stands the name. -/
theorem edited_of_mem {t : Token} (ht : t ∈ ofChars source)
    (hedited : t.span ∈ edits.map TextEdit.span) {front : List Char} (hne : front ≠ [])
    (hfront : t.start + byteLength front = t.stop) (back : List Char) :
    edited (.ofChars source) edits t.start (front ++ back) =
      name.toList ++ edited (.ofChars source) edits t.stop back := by
  obtain ⟨e, he, hspan⟩ := List.mem_map.mp hedited
  have hle := (start_lt_stop ht).2
  rw [edited_replaced (e := e) hne fun o ho hlt => ?_, h.newText e he, hfront]
  have hcontains : e.span.contains ((LineIndex.ofChars source).position o) := by
    rw [hspan, span_contains_iff hsize ht (by omega)]
    omega
  refine ⟨Span.find?_eq_some h.pairwise he hcontains, ?_⟩
  rw [hspan]
  exact first_eq_iff hsize ht (by omega)

/-- A piece of the text stays as it is if the tokens that are edited stand apart from it. -/
theorem edited_of_apart (offset : Nat) (front back : List Char)
    (hend : offset + byteLength front ≤ byteLength source)
    (happart : ∀ t ∈ ofChars source, t.span ∈ edits.map TextEdit.span →
      t.stop ≤ offset ∨ offset + byteLength front ≤ t.start) :
    edited (.ofChars source) edits offset (front ++ back) =
      front ++ edited (.ofChars source) edits (offset + byteLength front) back := by
  refine edited_kept fun o ho hlt e he => ?_
  obtain ⟨t, ht, -, hspan⟩ := h.token e he
  have hedited : t.span ∈ edits.map TextEdit.span := hspan ▸ List.mem_map_of_mem he
  rw [← hspan, span_contains_iff hsize ht (by omega)]
  rcases happart t ht hedited with hbefore | hbehind <;> omega

theorem edited_of_not_mem {t : Token} (ht : t ∈ ofChars source)
    (hedited : t.span ∉ edits.map TextEdit.span) {front : List Char}
    (hfront : t.start + byteLength front = t.stop) (back : List Char) :
    edited (.ofChars source) edits t.start (front ++ back) =
      front ++ edited (.ofChars source) edits t.stop back := by
  have hle := (start_lt_stop ht).2
  rw [h.edited_of_apart hsize t.start front back (by omega) fun t' ht' hedited' => ?_, hfront]
  have hne : t' ≠ t := fun heq => hedited (heq ▸ hedited')
  rw [hfront]
  exact apart ht' ht hne

/-- Such edits respell the text, from wherever the scan has got to. -/
theorem scan_respelled {steps : Nat} (offset : Nat) (text : List Char) (before : List Token)
    (hsteps : text.length ≤ steps) (hend : offset + byteLength text = byteLength source)
    (hsplit : ofChars source = before ++ scan (.ofChars source) steps offset text)
    (hbefore : ∀ t ∈ before, t.stop ≤ offset) :
    Respelled name.toList text (edited (.ofChars source) edits offset text)
      ((scan (.ofChars source) steps offset text).map (pieceAfter edits name)) := by
  induction steps generalizing offset text before with
  | zero =>
    rw [List.length_eq_zero_iff.mp (Nat.le_zero.mp hsteps)]
    exact .nil
  | succ steps ih =>
    cases text with
    | nil => exact .nil
    | cons c rest =>
      rw [List.length_cons] at hsteps
      rw [scan] at hsplit ⊢
      split at hsplit
      · rename_i hc
        rw [byteLength_cons] at hend
        have hrest := ih (offset + c.utf8Size) rest before (by omega) (by omega) hsplit
          fun t ht => (hbefore t ht).trans (Nat.le_add_right _ _)
        have hkept := h.edited_of_apart hsize offset [c] rest
          (by rw [byteLength_cons, byteLength_nil]; omega) fun t ht _ => by
            rw [hsplit] at ht
            rcases List.mem_append.mp ht with ht | ht
            · exact .inl (hbefore t ht)
            · exact .inr (scan_bounds (by omega) ht).1
        rw [List.singleton_append, List.singleton_append] at hkept
        rw [if_pos hc, hkept]
        exact .space hc hrest
      · rename_i hc
        have hx := Lexeme.read_splits c rest
        have hlen := congrArg byteLength hx.append
        have hcount := congrArg List.length hx.append
        have hpos := List.length_pos_iff.mpr hx.nonempty
        rw [byteLength_append] at hlen
        rw [List.length_append, List.length_cons] at hcount
        have ht : (Lexeme.read c rest).token (.ofChars source) offset ∈ ofChars source := by
          rw [hsplit]
          exact List.mem_append_right _ List.mem_cons_self
        have hrest := ih (offset + byteLength (Lexeme.read c rest).text)
          (Lexeme.read c rest).rest
          (before ++ [(Lexeme.read c rest).token (.ofChars source) offset]) (by omega) (by omega)
          (by rw [hsplit, List.append_assoc]; rfl) fun t ht => by
            rcases List.mem_append.mp ht with ht | ht
            · exact (hbefore t ht).trans (Nat.le_add_right _ _)
            · rw [List.mem_singleton.mp ht]
              exact le_rfl
        rw [if_neg hc, List.map_cons, pieceAfter]
        split
        · rename_i hedited
          have hk := h.kind hsize ht hedited
          have hreplaced := h.edited_of_mem hsize ht hedited hx.nonempty rfl
            (Lexeme.read c rest).rest
          rw [hx.append] at hreplaced
          have hrenamed := Respelled.renamed hk hrest
          rw [String.ofList_toList, ← hk] at hrenamed
          exact hreplaced ▸ hrenamed
        · rename_i hedited
          have hkept := h.edited_of_not_mem hsize ht hedited rfl (Lexeme.read c rest).rest
          rw [hx.append] at hkept
          exact hkept ▸ Respelled.kept (by simpa using hc) hrest

end TextEdit.Renaming

/-- What is read where edits have put a name in the places of identifiers. -/
theorem TextEdit.Renaming.tokenize_pieces {source name : String} {edits : List TextEdit}
    (h : Renaming source.toList name edits) (hsize : byteLength source.toList < 0x100000000)
    (hname : IsIdentText name.toList) :
    (tokenize (applyAll edits source)).map Token.piece =
      (tokenize source).map (Token.pieceAfter edits name) := by
  refine tokenize_pieces_eq ?_
  rw [applyAll, String.toList_ofList]
  exact (h.scan_respelled hsize 0 source.toList [] le_rfl (Nat.zero_add _) rfl
    fun t ht => by cases ht).reads hname

end PayFormula
