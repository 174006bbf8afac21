import PayFormula.Position

/-!
# Line index

The table of the offsets at which the lines of a text start. It turns a byte
offset into a position: the line is the last one that starts at or before the
offset, and an offset past the end of the text stays on the last line.
-/
namespace PayFormula

/-- Bytes of the UTF-8 form of a piece of text. -/
def byteLength : List Char → Nat
  | [] => 0
  | c :: text => c.utf8Size + byteLength text

@[simp] theorem byteLength_nil : byteLength [] = 0 := rfl

@[simp] theorem byteLength_cons (c : Char) (text : List Char) :
    byteLength (c :: text) = c.utf8Size + byteLength text := rfl

@[simp] theorem byteLength_append (a b : List Char) :
    byteLength (a ++ b) = byteLength a + byteLength b := by
  induction a with
  | nil => simp
  | cons c a ih => simp [ih, Nat.add_assoc]

structure LineIndex where
  /-- Where every line after the first starts, in increasing order. -/
  starts : List Nat
  length : Nat
  deriving DecidableEq, Repr, Inhabited

namespace LineIndex

/-- The offset just after each newline of a piece of text that starts at `offset`. -/
def startsAfter (offset : Nat) : List Char → List Nat
  | [] => []
  | c :: text =>
    let next := offset + c.utf8Size
    if c = '\n' then next :: startsAfter next text else startsAfter next text

def ofChars (text : List Char) : LineIndex := ⟨startsAfter 0 text, byteLength text⟩

def ofString (text : String) : LineIndex := ofChars text.toList

def lineCount (index : LineIndex) : Nat := index.starts.length + 1

/-- Walks down the line starts, keeping the line reached so far and its start. -/
def locate (offset : Nat) (line start : Nat) : List Nat → Position
  | [] => .ofCounts line (offset - start)
  | next :: starts =>
    if next ≤ offset then locate offset (line + 1) next starts
    else .ofCounts line (offset - start)

def position (index : LineIndex) (offset : Nat) : Position :=
  locate offset 0 0 index.starts

/-- The span of the bytes from `start` up to but not including `stop`; an empty
range is widened to the byte it stands before. -/
def span (index : LineIndex) (start stop : Nat) : Span :=
  ⟨index.position start, index.position (if start < stop then stop - 1 else start)⟩

/-- The position just after the last byte. -/
def endPosition (index : LineIndex) : Position := index.position index.length

end LineIndex

end PayFormula
