import Mathlib.Data.List.Forall2
import PayFormula.Proofs.Token.Again

/-!
# Spelling pieces

A printed text spells pieces if it is read as them in front of any text that
nothing continues. It is firm if it is read as them whatever follows. Texts are
put together from left to right: behind one that is not firm has to stand a
delimiter. An item of a list may ask for more, for it stands in front of what
separates or closes items.
-/
namespace PayFormula

/-- The text is read as the pieces, and what is behind it apart. -/
def Spells (text : String) (ps : List Piece) : Prop :=
  ∀ ⦃after qs⦄, Delimited after → Reads after qs → Reads (text.toList ++ after) (ps ++ qs)

/-- So it is whatever is behind it. -/
def Firm (text : String) (ps : List Piece) : Prop :=
  ∀ ⦃after qs⦄, Reads after qs → Reads (text.toList ++ after) (ps ++ qs)

/-- Nothing stands ahead but what separates or closes items. -/
def Parted (text : List Char) : Prop := ∀ c ∈ text.head?, c ∈ [',', ')', ']']

/-- The text is read as the pieces where an item ends. -/
def SpellsItem (text : String) (ps : List Piece) : Prop :=
  ∀ ⦃after qs⦄, Parted after → Reads after qs → Reads (text.toList ++ after) (ps ++ qs)

/-- The text starts with a delimiter. -/
def Opens (text : String) : Prop := ∃ c rest, text.toList = c :: rest ∧ c ∈ delimiters

variable {a b : String} {ps qs : List Piece}

theorem Opens.delimited (h : Opens a) (after : List Char) : Delimited (a.toList ++ after) := by
  obtain ⟨c, rest, htext, hc⟩ := h
  rw [htext]
  exact delimited_cons hc _

theorem Opens.append (h : Opens a) (b : String) : Opens (a ++ b) := by
  obtain ⟨c, rest, htext, hc⟩ := h
  exact ⟨c, rest ++ b.toList, by rw [String.toList_append, htext]; rfl, hc⟩

theorem opens_blank : Opens " " := ⟨' ', [], rfl, by decide⟩

theorem Firm.spells (h : Firm a ps) : Spells a ps :=
  fun _ _ _ hreads => h hreads

theorem firm_nil : Firm "" [] := fun _ _ h => h

theorem firm_blank : Firm " " [] := fun _ _ h => .space rfl h

theorem Firm.append (ha : Firm a ps) (hb : Firm b qs) : Firm (a ++ b) (ps ++ qs) := by
  intro after rs h
  rw [String.toList_append, List.append_assoc, List.append_assoc]
  exact ha (hb h)

theorem Firm.spells_append (ha : Firm a ps) (hb : Spells b qs) : Spells (a ++ b) (ps ++ qs) := by
  intro after rs hd h
  rw [String.toList_append, List.append_assoc, List.append_assoc]
  exact ha (hb hd h)

theorem Spells.append (ha : Spells a ps) (hopen : Opens b) (hb : Spells b qs) :
    Spells (a ++ b) (ps ++ qs) := by
  intro after rs hd h
  rw [String.toList_append, List.append_assoc, List.append_assoc]
  exact ha (hopen.delimited after) (hb hd h)

theorem Spells.firm_append (ha : Spells a ps) (hopen : Opens b) (hb : Firm b qs) :
    Firm (a ++ b) (ps ++ qs) := by
  intro after rs h
  rw [String.toList_append, List.append_assoc, List.append_assoc]
  exact ha (hopen.delimited after) (hb h)

theorem Parted.delimited {text : List Char} (h : Parted text) : Delimited text := by
  intro c hc
  have hitems : [',', ')', ']'].all (· ∈ delimiters) := by decide
  exact of_decide_eq_true (List.all_eq_true.mp hitems c (h c hc))

theorem Spells.item (h : Spells a ps) : SpellsItem a ps :=
  fun _ _ hd hreads => h hd.delimited hreads

theorem Firm.item_append (ha : Firm a ps) (hb : SpellsItem b qs) :
    SpellsItem (a ++ b) (ps ++ qs) := by
  intro after rs hd h
  rw [String.toList_append, List.append_assoc, List.append_assoc]
  exact ha (hb hd h)

/-- In front of what separates or closes it an item is spelled. -/
theorem SpellsItem.firm_append (ha : SpellsItem a ps) {c : Char} {rest : List Char}
    (hopen : b.toList = c :: rest) (hc : c ∈ [',', ')', ']']) (hb : Firm b qs) :
    Firm (a ++ b) (ps ++ qs) := by
  intro after rs h
  have hparted : Parted (b.toList ++ after) := by
    rw [hopen]
    intro d hd
    cases hd
    exact hc
  rw [String.toList_append, List.append_assoc, List.append_assoc]
  exact ha hparted (hb h)

theorem firm_mark {m : Mark} (hm : m.isFirm) : Firm m.text [m.piece] := fun _ _ h => reads_firm hm h

theorem spells_keyword (w : Keyword) : Spells w.text [w.piece] :=
  fun _ _ hd h => reads_keyword w hd h

theorem firm_keyword (w : Keyword) : Firm (w.text ++ " ") [w.piece] :=
  (spells_keyword w).firm_append opens_blank firm_blank

theorem spells_kept {p : Piece} {text : String} (hp : p.IsRead) (hk : p.1.isKept)
    (htext : text.toList = p.text) : Spells text [p] := by
  intro after qs hd h
  rw [htext]
  exact reads_kept hp hk hd h

/-- Items with commas between them. -/
theorem spells_commaSeparated {texts : List String} {parts : List (List Piece)}
    (h : List.Forall₂ SpellsItem texts parts) :
    SpellsItem (", ".intercalate texts) ([Mark.comma.piece].intercalate parts) := by
  induction h with
  | nil => exact firm_nil.spells.item
  | @cons text part texts parts hfirst hothers ih =>
    cases hothers with
    | nil => simpa using hfirst
    | @cons text' part' texts parts hsecond hothers =>
      have hcomma : Firm ", " [Mark.comma.piece] :=
        (firm_mark (m := .comma) rfl).append firm_blank
      rw [String.intercalate_cons_cons, List.intercalate_cons_cons]
      exact (hfirst.firm_append rfl (by decide) hcomma).item_append ih

end PayFormula
