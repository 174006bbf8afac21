import PayFormula.Proofs.Token.Spells
import PayFormula.Syntax.Printer

/-!
# Tokens that were passed over

Tokens are printed as they stood, with a blank between any two of them. The text
is read as the same tokens but in one case: behind an open brace a blank belongs
to the brace. So tokens are tidy if none of them but the last is such a brace.
They are to be passed over again, too. For this every bracket has to be closed by
its own mark, up to where the brackets are left.
-/
namespace PayFormula

/-- The marks that are owed behind a token, the innermost one first. There are none behind a closing
mark that is not owed, and behind a comma outside all brackets. -/
def TokenKind.owedAfter? (owed : List Mark) : TokenKind → Option (List Mark)
  | .mark .lparen => some (.rparen :: owed)
  | .mark .lbracket => some (.rbracket :: owed)
  | .mark .rparen => if owed.head? = some .rparen then some owed.tail else none
  | .mark .rbracket => if owed.head? = some .rbracket then some owed.tail else none
  | .mark .comma => if owed.isEmpty then none else some owed
  | _ => some owed

/-- Each bracket is closed by its own mark, up to a comma or closing mark outside all brackets. -/
def nests (owed : List Mark) : List Token → Bool
  | [] => true
  | t :: tokens =>
    match t.kind.owedAfter? owed with
    | some owed => nests owed tokens
    | none => owed.isEmpty

/-- Tokens that can be printed and passed over again. -/
structure Tidy (tokens : List Token) : Prop where
  nested : nests [] tokens
  closed : ∀ t ∈ tokens.dropLast, t.piece.opensBrace = false

instance (tokens : List Token) : Decidable (Tidy tokens) :=
  decidable_of_iff (nests [] tokens ∧ ∀ t ∈ tokens.dropLast, t.piece.opensBrace = false)
    ⟨fun ⟨hn, hc⟩ => ⟨hn, hc⟩, fun h => ⟨h.nested, h.closed⟩⟩

/-- Only the pieces of the tokens matter. -/
theorem nests_congr {tokens tokens' : List Token}
    (h : tokens'.map Token.piece = tokens.map Token.piece) (owed : List Mark) :
    nests owed tokens' = nests owed tokens := by
  induction tokens generalizing owed tokens' with
  | nil => rw [List.map_eq_nil_iff.mp h]
  | cons t tokens ih =>
    obtain ⟨t', tokens', rfl, ht, htokens⟩ := List.map_eq_cons_iff.mp h
    have hk : t'.kind = t.kind := Token.kind_of_piece ht
    rw [nests, nests, hk]
    split
    · exact ih htokens _
    · rfl

theorem Tidy.congr {tokens tokens' : List Token} (h : Tidy tokens)
    (hp : tokens'.map Token.piece = tokens.map Token.piece) : Tidy tokens' := by
  refine ⟨nests_congr hp [] ▸ h.nested, fun t ht => ?_⟩
  have hpiece : t.piece ∈ (tokens.map Token.piece).dropLast := by
    rw [← hp, ← List.map_dropLast]
    exact List.mem_map_of_mem ht
  rw [← List.map_dropLast] at hpiece
  obtain ⟨u, hu, heq⟩ := List.mem_map.mp hpiece
  rw [← heq]
  exact h.closed u hu

theorem Token.render_toList (t : Token) : t.render.toList = t.piece.text := by
  rw [render]
  split
  · rename_i hk
    rw [Piece.text_of_eq (p := t.piece) hk, String.toList_append, String.toList_append]
    rfl
  · rename_i hk
    rw [Piece.text_of_ne (p := t.piece) hk]
    rfl

/-- A token that can be read from its own text. -/
structure Token.Rereadable (t : Token) : Prop where
  isRead : t.piece.IsRead
  not_isComment : t.kind.isComment = false
  not_isCut : t.kind.isCut = false

theorem Token.Rereadable.of_piece {t t' : Token} (h : t.Rereadable) (hp : t'.piece = t.piece) :
    t'.Rereadable := by
  have hk : t'.kind = t.kind := Token.kind_of_piece hp
  exact ⟨hp ▸ h.isRead, hk ▸ h.not_isComment, hk ▸ h.not_isCut⟩

/-- No piece of a text is its end. -/
theorem Piece.IsRead.ne_eof {p : Piece} (h : p.IsRead) : p.1 ≠ .eof := by
  obtain ⟨c, rest, -, rfl⟩ := h
  change (Lexeme.read c rest).kind ≠ .eof
  have hlongest := Lexeme.read_longest c rest
  generalize Lexeme.read c rest = x at hlongest
  intro hk
  cases hlongest with
  | word _ _ _ hclassify => exact Word.classify_ne (by decide) _ (hclassify.trans hk)
  | braced _ hshape => exact Lexeme.bracedKind_ne (by decide) _ (hshape.trans hk)
  | _ => cases hk

theorem Token.Rereadable.reads {t : Token} (ht : t.Rereadable) {after : List Char}
    {qs : List Piece} (hopen : t.piece.opensBrace → ∀ d ∈ after.head?, Lexeme.isBraced d = false)
    (hd : Delimited after) (h : Reads after qs) :
    Reads (t.render.toList ++ after) (t.piece :: qs) := by
  have hline : t.piece.1 ≠ .lineComment := by
    intro hk
    have hcomment := ht.not_isComment
    rw [show t.kind = .lineComment from hk] at hcomment
    cases hcomment
  rw [t.render_toList]
  exact reads_again ht.isRead hline ht.not_isCut hopen hd h

/-- What is printed for tidy tokens is read as these tokens, where an item ends. -/
theorem Tidy.spells {tokens : List Token} (h : Tidy tokens) (ht : ∀ t ∈ tokens, t.Rereadable) :
    SpellsItem (" ".intercalate (tokens.map Token.render)) (tokens.map Token.piece) := by
  obtain ⟨-, hclosed⟩ := h
  induction tokens with
  | nil => exact firm_nil.spells.item
  | cons t tokens ih =>
    obtain ⟨hfirst, hothers⟩ := List.forall_mem_cons.mp ht
    intro after qs hparted hreads
    cases tokens with
    | nil =>
      have hbraced : ∀ d ∈ after.head?, Lexeme.isBraced d = false := by
        intro d hd
        have hitems : [',', ')', ']'].all (Lexeme.isBraced · = false) := by decide
        exact of_decide_eq_true (List.all_eq_true.mp hitems d (hparted d hd))
      simpa using hfirst.reads (fun _ => hbraced) hparted.delimited hreads
    | cons u tokens =>
      rw [List.dropLast_cons_cons, List.forall_mem_cons] at hclosed
      have hreads := ih hothers hclosed.2 hparted hreads
      have hblank := Reads.space (c := ' ') rfl hreads
      have hall := hfirst.reads (fun hopen => absurd hopen (by simp [hclosed.1]))
        (delimited_cons (by decide) _) hblank
      simpa [String.intercalate_cons_cons] using hall

/-- Every token of a text but the last one was ended. -/
theorem tokenize_ended (source : String) :
    (tokenize source).Pairwise fun t _ => t.kind.isCut = false := by
  have hscan (index : LineIndex) (steps offset : Nat) (text : List Char) :
      (Token.scan index steps offset text).Pairwise fun t _ => t.kind.isCut = false := by
    induction steps generalizing offset text with
    | zero => exact .nil
    | succ steps ih =>
      cases text with
      | nil => exact .nil
      | cons c rest =>
        rw [Token.scan]
        split
        · exact ih _ _
        · refine .cons (fun u hu => ?_) (ih _ _)
          refine Lexeme.read_ended fun hnil => ?_
          rw [hnil] at hu
          cases steps <;> cases hu
  exact hscan _ _ _ _

end PayFormula
