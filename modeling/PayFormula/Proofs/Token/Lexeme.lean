import Mathlib.Data.List.TakeWhile
import PayFormula.Token.Lexeme

/-!
# Lexemes and their texts

A lexeme and what is left after it make up the text it was read from.
-/
namespace PayFormula.Lexeme

theorem splitComment?_append {text body after : List Char}
    (h : splitComment? text = some (body, after)) : body ++ after = text := by
  fun_induction splitComment? text generalizing body with
  | case1 rest =>
    cases h
    rfl
  | case2 c rest _ ih =>
    obtain ⟨⟨b, a⟩, hb, heq⟩ := Option.map_eq_some_iff.mp h
    cases heq
    rw [List.cons_append, ih hb]
  | case3 => cases h

/-- A lexeme is read from the text and leaves the rest of it. -/
structure Splits (x : Lexeme) (c : Char) (rest : List Char) : Prop where
  append : x.text ++ x.rest = c :: rest
  nonempty : x.text ≠ []

theorem Splits.text_eq {x : Lexeme} {c : Char} {rest : List Char} (h : x.Splits c rest) :
    x.text = c :: x.text.tail := by
  obtain ⟨d, tail, htext⟩ := List.exists_cons_of_ne_nil h.nonempty
  have happend := h.append
  rw [htext] at happend ⊢
  rw [(List.cons.inj happend).1, List.tail_cons]

theorem ofWord_splits (c : Char) (rest : List Char) : (ofWord c rest).Splits c rest :=
  ⟨congrArg (c :: ·) List.takeWhile_append_dropWhile, List.cons_ne_nil _ _⟩

theorem ofNumber_splits (c : Char) (rest : List Char) : (ofNumber c rest).Splits c rest := by
  have hrest := List.takeWhile_append_dropWhile (p := Char.isDigit) (l := rest)
  unfold ofNumber
  split
  · rename_i d part heq
    rw [heq] at hrest
    split
    · refine ⟨?_, List.cons_ne_nil _ _⟩
      simpa using hrest
    · exact ⟨congrArg (c :: ·) hrest, List.cons_ne_nil _ _⟩
  · exact ⟨congrArg (c :: ·) hrest, List.cons_ne_nil _ _⟩

theorem ofString_splits (rest : List Char) : (ofString rest).Splits '"' rest := by
  have hrest := List.takeWhile_append_dropWhile (p := (· ≠ '"')) (l := rest)
  unfold ofString
  split
  · rename_i quote after heq
    rw [heq] at hrest
    refine ⟨?_, List.cons_ne_nil _ _⟩
    rw [List.append_assoc, List.cons_append, List.singleton_append, hrest]
  · rename_i heq
    rw [heq] at hrest
    exact ⟨congrArg ('"' :: ·) hrest, List.cons_ne_nil _ _⟩

theorem ofBlockComment_splits (rest : List Char) :
    (ofBlockComment rest).Splits '/' ('*' :: rest) := by
  unfold ofBlockComment
  split
  · rename_i body after heq
    exact ⟨congrArg ('/' :: '*' :: ·) (splitComment?_append heq), List.cons_ne_nil _ _⟩
  · exact ⟨by simp, List.cons_ne_nil _ _⟩

theorem ofLineComment_splits (rest : List Char) :
    (ofLineComment rest).Splits '/' ('/' :: rest) :=
  ⟨congrArg ('/' :: '/' :: ·) List.takeWhile_append_dropWhile, List.cons_ne_nil _ _⟩

theorem ofBrace_splits (rest : List Char) : (ofBrace rest).Splits '\x7b' rest := by
  have hrest := List.takeWhile_append_dropWhile (p := isBraced) (l := rest)
  unfold ofBrace
  split
  · rename_i after heq
    rw [heq] at hrest
    refine ⟨?_, List.cons_ne_nil _ _⟩
    rw [List.append_assoc, List.cons_append, List.singleton_append, hrest]
  · dsimp only
    split
    · rename_i hbody
      rw [List.isEmpty_iff.mp hbody] at hrest
      exact ⟨congrArg ('\x7b' :: ·) hrest, List.cons_ne_nil _ _⟩
    · exact ⟨congrArg ('\x7b' :: ·) hrest, List.cons_ne_nil _ _⟩

theorem ofSingle_splits (c : Char) (rest : List Char) : (ofSingle c rest).Splits c rest := by
  unfold ofSingle
  split <;> exact ⟨rfl, List.cons_ne_nil _ _⟩

theorem ofMark_splits (c : Char) (rest : List Char) : (ofMark c rest).Splits c rest := by
  cases rest with
  | nil => exact ofSingle_splits c []
  | cons d rest =>
    rw [ofMark]
    split
    · exact ⟨rfl, List.cons_ne_nil _ _⟩
    · exact ofSingle_splits c (d :: rest)

theorem read_splits (c : Char) (rest : List Char) : (read c rest).Splits c rest := by
  unfold read
  split
  · exact ofWord_splits c rest
  · split
    · exact ofNumber_splits c rest
    · split
      · exact ofString_splits _
      · exact ofLineComment_splits _
      · exact ofBlockComment_splits _
      · exact ofBrace_splits _
      · exact ofMark_splits _ _

end PayFormula.Lexeme
