import PayFormula.Proofs.Calendar
import PayFormula.Proofs.Document.Edited

/-!
# Pieces that some text is read as

Marks and keywords are, and so are all names that are accepted, the names of the
functions of the catalog, and the literals of every number, string, date and time.
-/
namespace PayFormula

theorem Reads.isRead {text : List Char} {ps : List Piece} (h : Reads text ps) :
    ∀ p ∈ ps, p.IsRead := by
  induction h with
  | nil => exact List.forall_mem_nil _
  | space _ _ ih => exact ih
  | @lexeme c rest ps hc _ ih => exact List.forall_mem_cons.mpr ⟨⟨c, rest, hc, rfl⟩, ih⟩

@[simp] theorem Mark.isRead (m : Mark) : m.piece.IsRead := by
  have h : m.piece ∈ (tokenize m.text).map Token.piece := by cases m <;> decide +kernel
  obtain ⟨t, ht, hpiece⟩ := List.mem_map.mp h
  rw [← hpiece]
  exact tokenize_isRead ht

@[simp] theorem Keyword.isRead (w : Keyword) : w.piece.IsRead :=
  (reads_keyword w (fun _ h => by cases h) .nil).isRead _ List.mem_cons_self

theorem Word.isRead {word : String} (h : IsShaped word) :
    Piece.IsRead (Word.classify word, word) := by
  obtain ⟨c, body, htext, -⟩ := id h
  rw [← Lexeme.isWord_toList, htext] at h
  obtain ⟨hstart, hbody⟩ := Bool.and_eq_true_iff.mp h
  have hnil : Delimited [] := fun _ h => by cases h
  exact (reads_word word htext hstart hbody hnil .nil).isRead _ List.mem_cons_self

theorem isRead_name {name : String} (h : validateName name = .ok ()) :
    Piece.IsRead (.ident, name) := by
  obtain ⟨hword, hkind⟩ := isIdentText_iff.mp (of_validateName h).1
  rw [String.ofList_toList] at hkind
  rw [← hkind]
  exact Word.isRead (Lexeme.isWord_toList.mp hword)

/-! ### Names of functions -/

theorem isRead_builtin {name : String} (h : Catalog.isBuiltin name) :
    Piece.IsRead (.builtin, name) := by
  have hplain := Catalog.isPlainWord_of_isBuiltin h
  simp only [Lexeme.isPlainWord, Bool.and_eq_true, decide_eq_true_eq] at hplain
  obtain ⟨hword, hkeyword⟩ := hplain
  have hnone : Word.keyword? name = none :=
    Option.eq_none_iff_forall_ne_some.mpr fun _ hkind => hkeyword (Word.spelling_of_keyword? hkind)
  have hclassify : Word.classify name = .builtin := by rw [Word.classify, hnone]; exact if_pos h
  rw [← hclassify]
  exact Word.isRead (Lexeme.isWord_toList.mp hword)

/-! ### Literals -/

section Literals

open Lexeme

theorem not_isSpace_of_isDigit {c : Char} (h : c.isDigit) : isSpace c = false := by
  have hspaces : [' ', '\t', '\r', '\n', '\x0b', '\x0c'].all (!Char.isDigit ·) := by decide
  apply decide_eq_false
  intro hmem
  have hc := List.all_eq_true.mp hspaces c hmem
  rw [h] at hc
  cases hc

theorem isRead_int {c : Char} {body : List Char} (hc : c.isDigit) (hbody : ∀ d ∈ body, d.isDigit) :
    Piece.IsRead (.int, String.ofList (c :: body)) := by
  have hlexeme : Longest ⟨.int, c :: body, []⟩ := .int hc hbody (by simp) (by simp)
  refine hlexeme.isRead fun d hd => ?_
  cases hd
  exact not_isSpace_of_isDigit hc

theorem isRead_float {c d : Char} {body part : List Char} (hc : c.isDigit)
    (hbody : ∀ d ∈ body, d.isDigit) (hd : d.isDigit) (hpart : ∀ d ∈ part, d.isDigit) :
    Piece.IsRead (.float, String.ofList (c :: body ++ '.' :: d :: part)) := by
  have hlexeme : Longest ⟨.float, c :: body ++ '.' :: d :: part, []⟩ :=
    .float hc hbody hd hpart (by simp)
  refine hlexeme.isRead fun d hd => ?_
  cases hd
  exact not_isSpace_of_isDigit hc

/-- A number is a float if it has a point. -/
theorem isRead_numeral {numeral : String} {d : Decimal}
    (h : Decimal.ofChars? numeral.toList = some d) :
    Piece.IsRead (if '.' ∈ numeral.toList then .float else .int, numeral) := by
  have hwhole : ∀ d ∈ numeral.toList.takeWhile Char.isDigit, d.isDigit :=
    fun _ hmem => List.mem_takeWhile_imp hmem
  have htext : numeral.toList.takeWhile Char.isDigit ++ numeral.toList.dropWhile Char.isDigit =
      numeral.toList := List.takeWhile_append_dropWhile
  have hnumeral : numeral = String.ofList numeral.toList := String.ofList_toList.symm
  unfold Decimal.ofChars? at h
  generalize numeral.toList.takeWhile Char.isDigit = whole at h hwhole htext
  generalize numeral.toList.dropWhile Char.isDigit = rest at h htext
  have hpoint : '.' ∉ whole := fun hmem => absurd (hwhole _ hmem) (by decide)
  cases whole with
  | nil => split at h <;> simp at h
  | cons c body =>
    obtain ⟨hc, hbody⟩ := List.forall_mem_cons.mp hwhole
    split at h
    · rw [List.append_nil] at htext
      rw [hnumeral, ← htext, String.toList_ofList, if_neg hpoint]
      exact isRead_int hc hbody
    · rename_i part
      cases part with
      | nil => simp at h
      | cons d part =>
        have hdigits : d.isDigit ∧ ∀ e ∈ part, e.isDigit := by
          by_contra hnot
          simp [hnot] at h
        rw [hnumeral, ← htext, String.toList_ofList, if_pos (by simp)]
        exact isRead_float hc hbody hdigits.1 hdigits.2
    · cases h

theorem isRead_string {value : String} (h : '"' ∉ value.toList) :
    Piece.IsRead (.string, value) := by
  have hlexeme : Longest ⟨.string, '"' :: value.toList ++ ['"'], []⟩ := .string h
  have hpiece : Lexeme.piece ⟨.string, '"' :: value.toList ++ ['"'], []⟩ = (.string, value) := by
    simp [Lexeme.piece, Lexeme.literal]
  rw [← hpiece]
  refine hlexeme.isRead fun d hd => ?_
  cases hd
  rfl

theorem isBraced_digitChar (n : Nat) : isBraced (Calendar.digitChar n) := by
  have h : ∀ k < 10, isBraced (Char.ofNat ('0'.toNat + k)) := by decide
  exact h (n % 10) (Nat.mod_lt n (by decide))

/-- What stands in braces is read as a date or a time if it has the shape of one. -/
theorem isRead_braced {text : String} {body : List Char} (hbody : ∀ c ∈ body, isBraced c)
    (htext : text.toList = '\x7b' :: body ++ ['\x7d']) :
    Piece.IsRead (bracedKind text.toList, text) := by
  have hlexeme : Longest ⟨bracedKind text.toList, text.toList, []⟩ := by
    rw [htext]
    exact .braced hbody rfl
  have hpiece : Lexeme.piece ⟨bracedKind text.toList, text.toList, []⟩ =
      (bracedKind text.toList, text) := by
    have hne : Lexeme.kind ⟨bracedKind text.toList, text.toList, []⟩ ≠ .string :=
      bracedKind_ne (by decide) _
    rw [Lexeme.piece, literal_eq_text hne, String.ofList_toList]
  rw [← hpiece]
  refine hlexeme.isRead fun d hd => ?_
  rw [htext] at hd
  cases hd
  rfl

theorem isRead_date {d : Date} (he : d.exists?) (hb : d.inBounds) :
    Piece.IsRead (.date, d.render) := by
  have hfields := Date.fields?_of_ofChars (Date.ofChars_render he hb)
  have htext : d.render.toList = '\x7b' :: (Calendar.writePair (d.year / 100) ++
      Calendar.writePair (d.year % 100) ++ '-' :: Calendar.writePair d.month ++
      '-' :: Calendar.writePair d.day) ++ ['\x7d'] := by simp [Date.render, Date.chars]
  have h := isRead_braced ?_ htext
  · rwa [bracedKind, hfields] at h
  · simp only [Calendar.writePair, List.cons_append, List.nil_append, List.forall_mem_cons,
      isBraced_digitChar, true_and]
    exact ⟨by decide, by decide, List.forall_mem_nil _⟩

theorem isRead_time {c : Clock} (h : c.inRange) : Piece.IsRead (.time, c.render) := by
  have hfields := Clock.fields?_of_ofChars (Clock.ofChars_render h)
  have htext : c.render.toList = '\x7b' :: (Calendar.writePair c.hour ++
      ':' :: Calendar.writePair c.minute) ++ ['\x7d'] := by simp [Clock.render, Clock.chars]
  have hdate : Date.fields? c.render.toList = none := by
    rw [htext]
    simp [Calendar.writePair, Date.fields?]
  have h := isRead_braced ?_ htext
  · rwa [bracedKind, hdate, hfields] at h
  · simp only [Calendar.writePair, List.cons_append, List.nil_append, List.forall_mem_cons,
      isBraced_digitChar, true_and]
    exact ⟨by decide, List.forall_mem_nil _⟩

end Literals

end PayFormula
