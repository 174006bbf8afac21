/-!
# Positions and spans

A place in a text is a line and a column, both counted from zero. Columns count
the bytes of the UTF-8 form, not characters. A span names its first and its last
place and contains both, so a one-byte token starts and ends at the same place.
-/
namespace PayFormula

structure Position where
  line : Nat
  column : Nat
  deriving DecidableEq, Repr, Inhabited

namespace Position

def origin : Position := ⟨0, 0⟩

/-- Coordinates are 32-bit words: counts past the last word start again at zero. -/
def ofCounts (line column : Nat) : Position := ⟨line % 0x100000000, column % 0x100000000⟩

/-- Reading order: by line, then by column. -/
instance : LE Position where
  le p q := p.line < q.line ∨ p.line = q.line ∧ p.column ≤ q.column

instance : LT Position where
  lt p q := p.line < q.line ∨ p.line = q.line ∧ p.column < q.column

theorem le_def {p q : Position} :
    p ≤ q ↔ p.line < q.line ∨ p.line = q.line ∧ p.column ≤ q.column := Iff.rfl

theorem lt_def {p q : Position} :
    p < q ↔ p.line < q.line ∨ p.line = q.line ∧ p.column < q.column := Iff.rfl

instance (p q : Position) : Decidable (p ≤ q) := decidable_of_iff _ le_def.symm
instance (p q : Position) : Decidable (p < q) := decidable_of_iff _ lt_def.symm

instance : Min Position := minOfLe
instance : Max Position := maxOfLe

def compare (p q : Position) : Ordering :=
  if p < q then .lt else if p = q then .eq else .gt

/-- The place `n` columns to the left, stopping at the start of the line. -/
def left (p : Position) (n : Nat) : Position := { p with column := p.column - n }

/-- `line:column`. -/
def render (p : Position) : String := toString p.line ++ ":" ++ toString p.column

end Position

structure Span where
  first : Position
  last : Position
  deriving DecidableEq, Repr, Inhabited

namespace Span

/-- The span of the first byte of a text. -/
def origin : Span := ⟨.origin, .origin⟩

def contains (s : Span) (p : Position) : Bool := decide (s.first ≤ p ∧ p ≤ s.last)

def encloses (s t : Span) : Bool := decide (s.first ≤ t.first ∧ t.last ≤ s.last)

/-- The least span that encloses both. -/
def join (s t : Span) : Span := ⟨min s.first t.first, max s.last t.last⟩

/-- `line:column..line:column`. -/
def render (s : Span) : String := s.first.render ++ ".." ++ s.last.render

end Span

end PayFormula
