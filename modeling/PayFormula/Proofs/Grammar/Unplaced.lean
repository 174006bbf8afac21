import PayFormula.Proofs.Grammar.Spelled
import PayFormula.Proofs.Token.Leaves
import PayFormula.Proofs.Tree.Mapped
import PayFormula.Proofs.Tree.Plain

/-!
# Tokens that stand nowhere

Tokens made up from their kind and their text alone, and the tokens of a tree as
they are printed: marks and keywords have one spelling each, and all others keep
their text.
-/
namespace PayFormula

namespace Grammar

/-- A token that stands nowhere. -/
def unplacedToken (kind : TokenKind) (literal : String) : Token :=
  ⟨kind, literal, .origin, .origin, 0, 0⟩

def unplacedMark (m : Mark) : Token := unplacedToken (.mark m) m.text

def unplacedKeyword (w : Keyword) : Token := unplacedToken (.keyword w) w.text

variable {t : Token} {toks front back : List Token}

@[simp] theorem piece_unplacedMark (m : Mark) : (unplacedMark m).piece = m.piece := rfl

@[simp] theorem piece_unplacedKeyword (w : Keyword) : (unplacedKeyword w).piece = w.piece := rfl

namespace Legible

@[simp] theorem nil : Legible [] := List.forall_mem_nil _

@[simp] theorem cons_iff : Legible (t :: back) ↔ t.piece.IsRead ∧ Legible back :=
  List.forall_mem_cons

@[simp] theorem append_iff : Legible (front ++ back) ↔ Legible front ∧ Legible back :=
  List.forall_mem_append

end Legible

end Grammar

namespace Token

open Grammar

/-- The token as it is printed, without its place. -/
def printed (t : Token) : Token :=
  match t.kind with
  | .mark m => unplacedMark m
  | .keyword w => unplacedKeyword w
  | _ => t.unplaced

variable {t : Token}

theorem printed_of_mark {m : Mark} (h : t.kind = .mark m) : t.printed = unplacedMark m := by
  rw [printed, h]

theorem printed_of_keyword {w : Keyword} (h : t.kind = .keyword w) :
    t.printed = unplacedKeyword w := by
  rw [printed, h]

theorem printed_of_other (hm : ∀ m, t.kind ≠ .mark m) (hw : ∀ w, t.kind ≠ .keyword w) :
    t.printed = t.unplaced := by
  unfold printed
  split
  · exact absurd ‹_› (hm _)
  · exact absurd ‹_› (hw _)
  · rfl

@[simp] theorem bare_printed (t : Token) : t.printed.bare = t.bare := by
  unfold printed
  split
  · exact bare_congr (Eq.symm ‹_›)
  · exact bare_congr (Eq.symm ‹_›)
  · rfl

end Token

end PayFormula
