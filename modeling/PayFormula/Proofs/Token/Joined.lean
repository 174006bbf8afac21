import PayFormula.Proofs.Token.Local
import PayFormula.Proofs.Token.Tiling

/-!
# Texts put together at a newline

A newline ends what stands in front of it unless it is a string or a comment
that goes on to the end of the text. A text whose last token is a semicolon ends
in neither. So it has the same tokens when more lines follow, and these have
their own tokens, which only stand further down.
-/
namespace PayFormula

open Text

namespace Lexeme

variable {c : Char} {rest more : List Char}

theorem semicolon_of_kind (hk : (read c rest).kind = .mark .semicolon) : c = ';' := by
  have happend := (read_splits c rest).append
  have hlongest := read_longest c rest
  generalize read c rest = x at hk happend hlongest
  cases hlongest with
  | word _ _ _ hclassify => exact absurd (hclassify.trans hk) (Word.classify_ne (by decide) _)
  | braced _ hshape => exact absurd (hshape.trans hk) (bracedKind_ne (by decide) _)
  | pair hmark =>
    cases hk
    unfold pair? at hmark
    split at hmark <;> cases hmark
  | single hmark _ _ =>
    cases hk
    obtain ⟨rfl, -⟩ := List.cons.inj happend
    unfold single? at hmark
    split at hmark <;> first | rfl | cases hmark
  | _ => cases hk

theorem length_rest_le (c : Char) (rest : List Char) :
    (read c rest).rest.length ≤ rest.length := by
  have hx := read_splits c rest
  have hlength := congrArg List.length hx.append
  have hpos := List.length_pos_iff.mpr hx.nonempty
  rw [List.length_append, List.length_cons] at hlength
  omega

/-- In front of more lines a lexeme is read as it is at the end of the text, if it ends in front of
the end or is a semicolon. -/
theorem read_newline (h : (read c rest).rest = [] → (read c rest).kind = .mark .semicolon) :
    read c (rest ++ '\n' :: more) =
      { read c rest with rest := (read c rest).rest ++ '\n' :: more } := by
  by_cases hend : (read c rest).rest = []
  · obtain rfl := semicolon_of_kind (h hend)
    have hread (after : List Char) : read ';' after = ⟨.mark .semicolon, [';'], after⟩ := by
      cases after <;> rfl
    rw [hread] at hend
    rw [hread, hread]
  · obtain ⟨d, tail, hrest⟩ := List.exists_cons_of_ne_nil hend
    obtain ⟨e, text, htext⟩ := List.exists_cons_of_ne_nil (read_splits c rest).nonempty
    have halike : Alike (read c rest).rest ((read c rest).rest ++ '\n' :: more) := by
      rw [hrest]
      refine ⟨.inl rfl, fun _ => ?_⟩
      cases tail <;> rfl
    have happend := (read_splits c rest).append
    rw [htext, List.cons_append] at happend
    have hagain := read_alike halike
    rw [htext, List.tail_cons, ← List.append_assoc, (List.cons.inj happend).2] at hagain
    exact hagain

end Lexeme

/-! ### Places in later lines -/

/-- The same place some lines further down. -/
def Position.down (lines : Nat) (p : Position) : Position := { p with line := p.line + lines }

theorem Position.after_down (lines : Nat) (p : Position) (bytes : List UInt8) :
    (p.down lines).after bytes = (p.after bytes).down lines := by
  induction bytes generalizing p with
  | nil => rfl
  | cons byte bytes ih =>
    have hnext : (p.down lines).next byte = (p.next byte).down lines := by
      unfold next down
      split
      · exact congrArg (Position.mk · 0) (Nat.add_right_comm _ _ _)
      · rfl
    rw [after_cons, after_cons, hnext, ih]

/-- The bytes of a text go down as many lines as start in it. -/
theorem Position.line_after (p : Position) (offset : Nat) (text : List Char) :
    (p.after (bytes text)).line = p.line + (LineIndex.startsAfter offset text).length := by
  induction text generalizing p offset with
  | nil => rfl
  | cons c text ih =>
    rw [bytes_cons, after_append, LineIndex.startsAfter]
    split
    · rename_i hnewline
      have hnext : p.after (String.utf8EncodeChar c) = ⟨p.line + 1, 0⟩ := by
        rw [hnewline]
        rfl
      rw [ih _ (offset + c.utf8Size), hnext]
      exact Nat.add_right_comm p.line 1 _
    · rename_i hother
      have hplain : ∀ byte ∈ String.utf8EncodeChar c, byte ≠ newline :=
        fun byte hbyte => ne_newline_of_mem hother hbyte
      rw [ih _ (offset + c.utf8Size), after_of_no_newline hplain]

namespace Text

theorem place_left (a b : List Char) {offset : Nat} (h : offset ≤ byteLength a) :
    place (a ++ b) offset = place a offset := by
  rw [place, place, bytes_append, List.take_append_of_le_length (by rwa [length_bytes])]

/-- Behind a newline every place is as many lines down as the text in front of it has. -/
theorem place_newline (a b : List Char) (offset : Nat) :
    place (a ++ '\n' :: b) (offset + (byteLength a + 1)) =
      (place b offset).down (LineIndex.ofChars a).lineCount := by
  have hbytes : bytes (a ++ '\n' :: b) = (bytes a ++ [newline]) ++ bytes b := by
    rw [bytes_append, List.append_assoc]
    rfl
  have hlength : (bytes a ++ [newline]).length = byteLength a + 1 := by
    rw [List.length_append, length_bytes, List.length_singleton]
  have hstart : Position.origin.after (bytes a ++ [newline]) =
      Position.origin.down (LineIndex.ofChars a).lineCount := by
    rw [Position.after_append, Position.after_cons, Position.after_nil, Position.next, if_pos rfl,
      Position.line_after _ 0]
    exact congrArg (Position.mk · 0) (Nat.add_assoc _ _ _)
  rw [place, place, hbytes, Nat.add_comm offset, ← hlength, List.take_length_add_append,
    Position.after_append, hstart, Position.after_down]

end Text

namespace Token

/-- The same token behind more lines and bytes. -/
def shift (lines bytes : Nat) (t : Token) : Token :=
  { t with
    first := t.first.down lines, last := t.last.down lines,
    start := t.start + bytes, stop := t.stop + bytes }

theorem shift_zero : shift 0 0 = id := rfl

variable {index index' : LineIndex} {steps steps' offset : Nat} {text more : List Char}

theorem scan_space {c : Char} (hc : Lexeme.isSpace c) (rest : List Char) :
    scan index (steps + 1) offset (c :: rest) = scan index steps (offset + c.utf8Size) rest := by
  rw [scan, if_pos hc]

theorem scan_lexeme {c : Char} (hc : ¬ Lexeme.isSpace c) (rest : List Char) :
    scan index (steps + 1) offset (c :: rest) =
      (Lexeme.read c rest).token index offset ::
        scan index steps (offset + PayFormula.byteLength (Lexeme.read c rest).text)
          (Lexeme.read c rest).rest := by
  rw [scan, if_neg hc]

/-- As many steps as characters are enough. -/
theorem scan_more (h : text.length ≤ steps) (hle : steps ≤ steps') :
    scan index steps' offset text = scan index steps offset text := by
  induction steps generalizing steps' offset text with
  | zero =>
    rw [List.length_eq_zero_iff.mp (Nat.le_zero.mp h)]
    cases steps' <;> rfl
  | succ steps ih =>
    obtain ⟨steps', rfl⟩ : ∃ n, steps' = n + 1 := ⟨steps' - 1, by omega⟩
    cases text with
    | nil => rfl
    | cons c rest =>
      rw [List.length_cons] at h
      by_cases hc : Lexeme.isSpace c
      · rw [scan_space hc, scan_space hc, ih (by omega) (by omega)]
      · have hrest := Lexeme.length_rest_le c rest
        rw [scan_lexeme hc, scan_lexeme hc, ih (by omega) (by omega)]

/-- A text whose last token is a semicolon has the same tokens when more lines follow. -/
theorem scan_newline (hsteps : text.length ≤ steps) (hsteps' : steps + 1 + more.length ≤ steps')
    (hlast : ∀ t ∈ (scan index steps offset text).getLast?, t.kind = .mark .semicolon) :
    scan index steps' offset (text ++ '\n' :: more) =
      scan index steps offset text ++
        scan index more.length (offset + PayFormula.byteLength text + 1) more := by
  obtain ⟨steps', rfl⟩ : ∃ n, steps' = n + 1 := ⟨steps' - 1, by omega⟩
  induction steps generalizing offset text steps' with
  | zero =>
    rw [List.length_eq_zero_iff.mp (Nat.le_zero.mp hsteps)]
    exact scan_more (le_refl more.length) (by omega)
  | succ steps ih =>
    cases text with
    | nil => exact scan_more (le_refl more.length) (by omega)
    | cons c rest =>
      obtain ⟨steps', rfl⟩ : ∃ n, steps' = n + 1 := ⟨steps' - 1, by omega⟩
      rw [List.length_cons] at hsteps
      by_cases hc : Lexeme.isSpace c
      · rw [scan_space hc] at hlast ⊢
        rw [List.cons_append, scan_space hc, ih (by omega) hlast steps' (by omega),
          byteLength_cons, Nat.add_assoc offset]
      · have hrest := Lexeme.length_rest_le c rest
        have hbytes := congrArg PayFormula.byteLength (Lexeme.read_splits c rest).append
        rw [byteLength_append] at hbytes
        rw [scan_lexeme hc] at hlast ⊢
        have hread : Lexeme.read c (rest ++ '\n' :: more) = _ :=
          Lexeme.read_newline fun hend => by
            rw [hend, scan_nil] at hlast
            exact hlast _ rfl
        rw [List.cons_append, scan_lexeme hc, hread]
        have hlater : ∀ t ∈ (scan index steps
            (offset + PayFormula.byteLength (Lexeme.read c rest).text)
            (Lexeme.read c rest).rest).getLast?, t.kind = .mark .semicolon := fun t ht =>
          hlast t (by rw [List.getLast?_cons, ht]; rfl)
        have hothers := ih (by omega) hlater steps' (by omega)
        rw [List.cons_append, ← hbytes, ← Nat.add_assoc]
        exact congrArg (List.cons _) hothers

/-- A text that stands further down has the same tokens further down. -/
theorem scan_shift {lines bytes : Nat}
    (h : ∀ o, offset ≤ o → o < offset + PayFormula.byteLength text →
      index'.position (o + bytes) = (index.position o).down lines) :
    scan index' steps (offset + bytes) text =
      (scan index steps offset text).map (shift lines bytes) := by
  induction steps generalizing offset text with
  | zero => rfl
  | succ steps ih =>
    cases text with
    | nil => rfl
    | cons c rest =>
      have hpos := c.utf8Size_pos
      have hbytes := congrArg PayFormula.byteLength (Lexeme.read_splits c rest).append
      rw [byteLength_append, byteLength_cons] at hbytes
      rw [byteLength_cons] at h
      by_cases hc : Lexeme.isSpace c
      · rw [scan_space hc, scan_space hc, Nat.add_right_comm,
          ih fun o hle hlt => h o (by omega) (by omega)]
      · have hlexeme := byteLength_pos (Lexeme.read_splits c rest).nonempty
        rw [scan_lexeme hc, scan_lexeme hc, List.map_cons, Nat.add_right_comm offset bytes,
          ih fun o hle hlt => h o (by omega) (by omega)]
        refine congrArg (· :: _) ?_
        -- the place of the last byte is looked up one byte in front of the end
        have hfirst := h offset (by omega) (by omega)
        have hlast := h (offset + PayFormula.byteLength (Lexeme.read c rest).text - 1)
          (by omega) (by omega)
        rw [← Nat.sub_add_comm (by omega)] at hlast
        simp only [Lexeme.token, LineIndex.span, shift, hfirst]
        rw [if_pos (by omega), if_pos (by omega), Nat.add_right_comm offset bytes, hlast]

end Token

/-- A text with a token has a character that is no space. -/
theorem Token.exists_of_mem_scan {index : LineIndex} {steps offset : Nat} {text : List Char}
    {t : Token} (ht : t ∈ scan index steps offset text) : ∃ c ∈ text, ¬ Lexeme.isSpace c := by
  induction steps generalizing offset text with
  | zero => cases ht
  | succ steps ih =>
    cases text with
    | nil => cases ht
    | cons c rest =>
      by_cases hc : Lexeme.isSpace c
      · rw [scan_space hc] at ht
        obtain ⟨d, hd, hspace⟩ := ih ht
        exact ⟨d, List.mem_cons_of_mem c hd, hspace⟩
      · exact ⟨c, List.mem_cons_self, hc⟩

/-- A text with something else than newlines has fewer of them than bytes. -/
theorem LineIndex.length_startsAfter_lt {text : List Char} (offset : Nat)
    (h : ∃ c ∈ text, c ≠ '\n') : (startsAfter offset text).length < byteLength text := by
  have hle (offset : Nat) (text : List Char) : (startsAfter offset text).length ≤ byteLength text :=
    (startsAfter_sorted offset text).2.2
  induction text generalizing offset with
  | nil => simp at h
  | cons c text ih =>
    have hc := c.utf8Size_pos
    rw [startsAfter, byteLength_cons]
    split
    · rename_i hnewline
      obtain ⟨d, hd, hne⟩ := h
      rcases List.mem_cons.mp hd with rfl | hd
      · exact absurd hnewline hne
      · have hlt := ih (offset + c.utf8Size) ⟨d, hd, hne⟩
        rw [List.length_cons]
        omega
    · have hbound := hle (offset + c.utf8Size) text
      omega

section Strings

variable {a b : String}

theorem toList_newline (a b : String) :
    (a ++ "\n" ++ b).toList = a.toList ++ '\n' :: b.toList := by
  rw [String.toList_append, String.toList_append, List.append_assoc]
  rfl

theorem length_newline (a b : String) :
    byteLength (a ++ "\n" ++ b).toList = byteLength b.toList + (byteLength a.toList + 1) := by
  rw [toList_newline, byteLength_append, byteLength_cons]
  change _ + (1 + _) = _
  omega

/-- Where the bytes of the first lines stand. -/
theorem position_left {offset : Nat} (ho : offset ≤ byteLength a.toList) :
    (LineIndex.ofString (a ++ "\n" ++ b)).position offset =
      (LineIndex.ofString a).position offset := by
  have hlength := length_newline a b
  have hall : (LineIndex.ofString (a ++ "\n" ++ b)).position offset =
      (place (a ++ "\n" ++ b).toList offset).wrapped := LineIndex.position_eq_wrapped (by omega)
  have hown : (LineIndex.ofString a).position offset = (place a.toList offset).wrapped :=
    LineIndex.position_eq_wrapped ho
  rw [hall, hown, toList_newline, place_left a.toList _ ho]

variable (hsize : byteLength a.toList + byteLength b.toList < 0x100000000)
  (hlast : ∃ t, (tokenize a).getLast? = some t ∧ t.kind = .mark .semicolon)
include hsize hlast

omit hsize in
theorem semicolon_of_getLast? : ∀ t ∈ (tokenize a).getLast?, t.kind = .mark .semicolon := by
  obtain ⟨t, ht, hk⟩ := hlast
  intro u hu
  obtain rfl := Option.some.inj (hu.symm.trans ht)
  exact hk

/-- Where the bytes of the later lines stand. -/
theorem position_newline {offset : Nat} (ho : offset ≤ byteLength b.toList) :
    (LineIndex.ofString (a ++ "\n" ++ b)).position (offset + (byteLength a.toList + 1)) =
      ((LineIndex.ofString b).position offset).down (LineIndex.ofString a).lineCount := by
  have hlength := length_newline a b
  have hall : (LineIndex.ofString (a ++ "\n" ++ b)).position
      (offset + (byteLength a.toList + 1)) =
        (place (a ++ "\n" ++ b).toList (offset + (byteLength a.toList + 1))).wrapped :=
    LineIndex.position_eq_wrapped (by omega)
  have hown : (LineIndex.ofString b).position offset = place b.toList offset :=
    LineIndex.position_eq_place (by omega) ho
  -- the semicolon takes a byte that starts no line, so that the lines are counted in words
  have hlines : (LineIndex.ofString a).lineCount ≤ byteLength a.toList := by
    obtain ⟨t, ht, -⟩ := hlast
    obtain ⟨c, hc, hspace⟩ := Token.exists_of_mem_scan (List.mem_of_getLast? ht)
    refine LineIndex.length_startsAfter_lt 0 ⟨c, hc, ?_⟩
    rintro rfl
    exact hspace rfl
  obtain ⟨hline, hcolumn⟩ := place_le b.toList offset
  have hwords : (place b.toList offset).line + (LineIndex.ofString a).lineCount < 0x100000000 := by
    omega
  have hbound : (place b.toList offset).column < 0x100000000 := by omega
  rw [hall, hown, toList_newline, place_newline]
  exact LineIndex.ofCounts_of_lt hwords hbound

/-- Later lines leave the tokens up to a semicolon at the end of a text as they are, and have their
own tokens further down. -/
theorem tokenize_newline :
    tokenize (a ++ "\n" ++ b) = tokenize a ++ (tokenize b).map
      (Token.shift (LineIndex.ofString a).lineCount (byteLength a.toList + 1)) := by
  have hfront : Token.scan (LineIndex.ofString (a ++ "\n" ++ b)) a.toList.length 0 a.toList =
      tokenize a := by
    have hscan : Token.scan (LineIndex.ofString (a ++ "\n" ++ b)) a.toList.length (0 + 0) a.toList =
        (Token.scan (LineIndex.ofString a) a.toList.length 0 a.toList).map (Token.shift 0 0) :=
      Token.scan_shift fun o _ ho => position_left (by omega)
    rw [Token.shift_zero, List.map_id] at hscan
    exact hscan
  have hback : Token.scan (LineIndex.ofString (a ++ "\n" ++ b)) b.toList.length
      (0 + (byteLength a.toList + 1)) b.toList = (tokenize b).map
        (Token.shift (LineIndex.ofString a).lineCount (byteLength a.toList + 1)) :=
    Token.scan_shift fun o _ ho => position_newline hsize hlast (by omega)
  have hsteps : a.toList.length + 1 + b.toList.length ≤ (a ++ "\n" ++ b).toList.length := by
    rw [toList_newline, List.length_append, List.length_cons]
    omega
  have hends := semicolon_of_getLast? hlast
  rw [← hfront] at hends
  have hjoined := Token.scan_newline le_rfl hsteps hends
  rw [hfront, ← toList_newline, Nat.add_assoc, hback] at hjoined
  exact hjoined

/-- So they have their own end further down. -/
theorem endOf_newline :
    Token.endOf (LineIndex.ofString (a ++ "\n" ++ b)) =
      (Token.endOf (LineIndex.ofString b)).shift (LineIndex.ofString a).lineCount
        (byteLength a.toList + 1) := by
  have hlength : (LineIndex.ofString (a ++ "\n" ++ b)).length =
      byteLength b.toList + (byteLength a.toList + 1) := length_newline a b
  have hend := position_newline hsize hlast (le_refl (byteLength b.toList))
  rw [Token.endOf, Token.endOf, LineIndex.endPosition, LineIndex.endPosition, hlength, hend]
  rfl

end Strings

end PayFormula
