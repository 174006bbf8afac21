import Mathlib.Order.Basic
import PayFormula.LineIndex

/-!
# The order of positions

Positions are linearly ordered, as places in a text are read. The line index
keeps the order of offsets: as long as no count leaves its word, a later byte
stands at a later position.
-/
namespace PayFormula

instance : LinearOrder Position where
  le_refl p := by rw [Position.le_def]; omega
  le_trans p q r h h' := by rw [Position.le_def] at *; omega
  le_antisymm p q h h' := by
    cases p
    cases q
    simp only [Position.le_def, Position.mk.injEq] at *
    omega
  le_total p q := by rw [Position.le_def, Position.le_def]; omega
  lt_iff_le_not_ge p q := by rw [Position.le_def, Position.le_def, Position.lt_def]; omega
  toDecidableLE := inferInstance

theorem Position.origin_le (p : Position) : origin ≤ p := by
  rw [le_def]
  simp only [origin]
  omega

namespace Position

variable {p q : Position}

theorem left_le (p : Position) (n : Nat) : p.left n ≤ p :=
  le_def.mpr (.inr ⟨rfl, Nat.sub_le _ _⟩)

/-- The place to the left of one behind another is not in front of that. -/
theorem le_left_of_lt (h : q < p) : q ≤ p.left 1 := by
  rw [lt_def] at h
  rw [le_def]
  simp only [left]
  omega

/-- One column past a place is just behind it. -/
theorem left_le_of_le_succ (h : p ≤ ⟨q.line, q.column + 1⟩) : p.left 1 ≤ q := by
  rw [le_def] at h ⊢
  simp only [left] at *
  omega

end Position

namespace Span

variable {s t u : Span} {p : Position}

theorem contains_iff : s.contains p ↔ s.first ≤ p ∧ p ≤ s.last := by simp [contains]

theorem encloses_iff : s.encloses t ↔ s.first ≤ t.first ∧ t.last ≤ s.last := by simp [encloses]

theorem encloses_trans (h : s.encloses t) (h' : t.encloses u) : s.encloses u := by
  rw [encloses_iff] at *
  exact ⟨h.1.trans h'.1, h'.2.trans h.2⟩

theorem contains_of_encloses (h : s.encloses t) (hp : t.contains p) : s.contains p := by
  rw [encloses_iff] at h
  rw [contains_iff] at *
  exact ⟨h.1.trans hp.1, hp.2.trans h.2⟩

/-- Of things that stand one behind the other a search by place finds the one that contains it. -/
theorem find?_eq_some {α : Type} {span : α → Span} {items : List α} {a : α}
    (h : items.Pairwise fun a b => (span a).last < (span b).first) (ha : a ∈ items)
    (hp : (span a).contains p) : items.find? (fun b => (span b).contains p) = some a := by
  induction items with
  | nil => cases ha
  | cons b items ih =>
    obtain ⟨hlt, h⟩ := List.pairwise_cons.mp h
    rcases List.mem_cons.mp ha with rfl | ha
    · exact List.find?_cons_of_pos hp
    · have hb : ¬ (span b).contains p := by
        intro hb
        rw [contains_iff] at hp hb
        exact absurd (hlt a ha) (not_lt_of_ge (hp.1.trans hb.2))
      rw [List.find?_cons_of_neg (p := fun b => (span b).contains p) hb]
      exact ih h ha

end Span

namespace LineIndex

theorem ofCounts_of_lt {line column : Nat} (hl : line < 0x100000000) (hc : column < 0x100000000) :
    Position.ofCounts line column = ⟨line, column⟩ := by
  rw [Position.ofCounts, Nat.mod_eq_of_lt hl, Nat.mod_eq_of_lt hc]

/-- The line starts of a piece of text increase, lie behind its own start and
not behind its end, and there are no more of them than bytes. -/
theorem startsAfter_sorted (offset : Nat) (text : List Char) :
    (startsAfter offset text).Pairwise (· < ·) ∧ (∀ s ∈ startsAfter offset text, offset < s) ∧
      (startsAfter offset text).length ≤ byteLength text := by
  induction text generalizing offset with
  | nil => simp [startsAfter]
  | cons c text ih =>
    obtain ⟨hsorted, hlater, hcount⟩ := ih (offset + c.utf8Size)
    have hc : 0 < c.utf8Size := c.utf8Size_pos
    rw [startsAfter, byteLength_cons]
    split
    · refine ⟨List.pairwise_cons.mpr ⟨hlater, hsorted⟩, ?_, ?_⟩
      · intro s hs
        rcases List.mem_cons.mp hs with rfl | hs
        · omega
        · have := hlater s hs
          omega
      · rw [List.length_cons]
        omega
    · refine ⟨hsorted, ?_, by omega⟩
      intro s hs
      have := hlater s hs
      omega

/-- Going down more line starts never goes back to an earlier line. -/
theorem le_line_locate {offset line start : Nat} {starts : List Nat}
    (hl : line + starts.length < 0x100000000) :
    line ≤ (locate offset line start starts).line := by
  induction starts generalizing line start with
  | nil =>
    have hmod : line % 0x100000000 = line := Nat.mod_eq_of_lt (by simpa using hl)
    exact Nat.le_of_eq hmod.symm
  | cons next starts ih =>
    rw [List.length_cons] at hl
    rw [locate]
    split
    · have : line + 1 ≤ (locate offset (line + 1) next starts).line := ih (by omega)
      omega
    · have hmod : line % 0x100000000 = line := Nat.mod_eq_of_lt (by omega)
      exact Nat.le_of_eq hmod.symm

theorem locate_lt_locate {a b line start : Nat} {starts : List Nat} (hab : a < b)
    (hb : b < 0x100000000) (hl : line + starts.length < 0x100000000) (hs : start ≤ a)
    (hsorted : starts.Pairwise (· < ·)) :
    locate a line start starts < locate b line start starts := by
  induction starts generalizing line start with
  | nil =>
    have hline : line < 0x100000000 := by simpa using hl
    rw [locate, locate, ofCounts_of_lt hline (by omega), ofCounts_of_lt hline (by omega),
      Position.lt_def]
    exact .inr ⟨rfl, by dsimp only; omega⟩
  | cons next starts ih =>
    rw [List.length_cons] at hl
    rw [locate, locate]
    by_cases ha : next ≤ a
    · rw [if_pos ha, if_pos (by omega)]
      exact ih (by omega) ha hsorted.of_cons
    · rw [if_neg ha, ofCounts_of_lt (by omega) (by omega)]
      split
      · -- Only the later offset lies behind the next line start.
        have : line + 1 ≤ (locate b (line + 1) next starts).line := le_line_locate (by omega)
        exact .inl this
      · rw [ofCounts_of_lt (by omega) (by omega)]
        exact .inr ⟨rfl, by dsimp only; omega⟩

/-- A later offset of a text has a later position, up to the end of the text. -/
theorem position_lt_position {text : List Char} (hsize : byteLength text < 0x100000000)
    {a b : Nat} (hab : a < b) (hb : b ≤ byteLength text) :
    (ofChars text).position a < (ofChars text).position b := by
  obtain ⟨hsorted, -, hcount⟩ := startsAfter_sorted 0 text
  exact locate_lt_locate hab (by omega) (by simp only [ofChars]; omega) (Nat.zero_le a) hsorted

theorem position_le_position {text : List Char} (hsize : byteLength text < 0x100000000)
    {a b : Nat} (hab : a ≤ b) (hb : b ≤ byteLength text) :
    (ofChars text).position a ≤ (ofChars text).position b := by
  rcases Nat.eq_or_lt_of_le hab with rfl | hlt
  · exact le_rfl
  · exact (position_lt_position hsize hlt hb).le

end LineIndex

end PayFormula
