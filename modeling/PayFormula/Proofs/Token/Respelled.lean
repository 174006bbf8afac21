import PayFormula.Proofs.Token.Local
import PayFormula.Proofs.Token.Shaped

/-!
# Other names in a text

A text in which another name stands for some of the identifiers is read as the
same pieces but for these. Whatever else it holds is read as it was, for the new
name starts a word just as the old ones do.
-/
namespace PayFormula

/-- A text that is one identifier. -/
structure IsIdentText (text : List Char) : Prop where
  start : ∃ c ∈ text.head?, Lexeme.isWordStart c
  parts : ∀ c ∈ text.tail, Lexeme.isWordPart c
  kind : Word.classify (String.ofList text) = .ident

theorem isIdentText_iff {text : List Char} : IsIdentText text ↔
    Lexeme.isWord text ∧ Word.classify (String.ofList text) = .ident := by
  constructor
  · intro h
    obtain ⟨c, hc, hstart⟩ := h.start
    obtain ⟨body, rfl⟩ := List.head?_eq_some_iff.mp hc
    exact ⟨Bool.and_eq_true_iff.mpr ⟨hstart, List.all_eq_true.mpr h.parts⟩, h.kind⟩
  · rintro ⟨hword, hkind⟩
    cases text with
    | nil => cases hword
    | cons c body =>
      obtain ⟨hstart, hparts⟩ := Bool.and_eq_true_iff.mp hword
      exact ⟨⟨c, rfl, hstart⟩, List.all_eq_true.mp hparts, hkind⟩

namespace Lexeme

variable {c : Char} {body rest after : List Char}

theorem read_ident (h : IsIdentText (c :: body)) (hstop : ∀ d ∈ after.head?, isWordPart d = false) :
    read c (body ++ after) = ⟨.ident, c :: body, after⟩ := by
  obtain ⟨d, hd, hstart⟩ := h.start
  cases hd
  have hparts : ∀ d ∈ body, isWordPart d := h.parts
  rw [read_word hstart, ofWord_append hparts hstop, h.kind]

theorem isWordStart_of_kind (h : (read c rest).kind = .ident) : isWordStart c := by
  have hword := ((read_longest c rest).isWord (.inl h)).1
  rw [(read_splits c rest).text_eq] at hword
  exact (Bool.and_eq_true_iff.mp hword).1

/-- Behind an identifier no word goes on. -/
theorem not_isWordPart_of_kind (h : (read c rest).kind = .ident) :
    ∀ d ∈ (read c rest).rest.head?, isWordPart d = false := by
  rw [read_word (isWordStart_of_kind h)]
  exact head?_dropWhile_not isWordPart rest

end Lexeme

/-- What is read as the name of a function names one. -/
theorem Piece.IsRead.exists_function {p : Piece} (h : p.IsRead) (hk : p.1 = .builtin) :
    ∃ f, Catalog.lookup? p.2 = some f :=
  Option.isSome_iff_exists.mp
    (Word.isBuiltin_of_classify ((h.word (.inr (.inl hk))).2.trans hk))

open Lexeme

/-- The second text is the first one with some of its identifiers replaced by another one; it is to
be read as the given pieces. -/
inductive Respelled (name : List Char) : List Char → List Char → List Piece → Prop
  | nil : Respelled name [] [] []
  | space {c : Char} {a b : List Char} {ps : List Piece} :
      isSpace c → Respelled name a b ps → Respelled name (c :: a) (c :: b) ps
  | kept {c : Char} {rest b : List Char} {ps : List Piece} :
      isSpace c = false → Respelled name (read c rest).rest b ps →
      Respelled name (c :: rest) ((read c rest).text ++ b) ((read c rest).piece :: ps)
  | renamed {c : Char} {rest b : List Char} {ps : List Piece} :
      (read c rest).kind = .ident → Respelled name (read c rest).rest b ps →
      Respelled name (c :: rest) (name ++ b) ((.ident, String.ofList name) :: ps)

namespace Respelled

variable {name a b : List Char} {ps : List Piece} (hname : IsIdentText name)
include hname

/-- The two texts go on alike, wherever both have been read up to. -/
theorem alike (h : Respelled name a b ps) : Alike a b := by
  have hcons {c : Char} {a b : List Char} (hc : c ≠ '.') : Alike (c :: a) (c :: b) :=
    ⟨.inl rfl, fun hpoint => absurd (Option.some.inj hpoint) hc⟩
  induction h with
  | nil => exact ⟨.inl rfl, fun h => by cases h⟩
  | @space c _ _ _ hc _ _ =>
    refine hcons ?_
    rintro rfl
    cases hc
  | @kept c rest b _ _ _ ih =>
    by_cases hc : c = '.'
    · -- a point is read alone, so what is behind it goes on alike
      subst hc
      have hpoint : read '.' rest = ⟨.mark .period, ['.'], rest⟩ := by cases rest <;> rfl
      rw [hpoint] at ih ⊢
      refine ⟨.inl rfl, fun _ => ?_⟩
      change rest.head?.any Char.isDigit = b.head?.any Char.isDigit
      rcases ih.head with heq | ⟨⟨d, hd, hdw⟩, e, he, hew⟩
      · rw [heq]
      · rw [hd, he]
        exact (not_isDigit_of_isWordStart hdw).trans (not_isDigit_of_isWordStart hew).symm
    · rw [(read_splits _ _).text_eq]
      exact hcons hc
  | @renamed c rest b _ hk _ _ =>
    obtain ⟨d, hd, hstart⟩ := hname.start
    obtain ⟨tail, rfl⟩ := List.head?_eq_some_iff.mp hd
    refine ⟨.inr ⟨⟨c, rfl, isWordStart_of_kind hk⟩, d, rfl, hstart⟩, fun hpoint => ?_⟩
    have hc := isWordStart_of_kind hk
    rw [Option.some.inj hpoint] at hc
    exact absurd hc (by decide)

theorem reads (h : Respelled name a b ps) : Reads b ps := by
  induction h with
  | nil => exact .nil
  | space hc _ ih => exact .space hc ih
  | @kept c rest b _ hc h ih =>
    have hread := read_alike (h.alike hname)
    have hreads := Reads.of_read hc hread ih
    rw [(read_splits _ _).text_eq]
    exact hreads
  | @renamed c rest b _ hk h ih =>
    obtain ⟨d, hd, hstart⟩ := hname.start
    obtain ⟨body, rfl⟩ := List.head?_eq_some_iff.mp hd
    have hstop : ∀ e ∈ b.head?, isWordPart e = false := by
      refine (h.alike hname).stops (fun e e' he he' => ?_) (not_isWordPart_of_kind hk)
      rw [isWordPart_of_isWordStart he, isWordPart_of_isWordStart he']
    exact .of_read (not_isSpace_of_isWordStart hstart) (read_ident hname hstop) ih

end Respelled

end PayFormula
