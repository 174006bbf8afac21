import PayFormula.LineIndex

/-!
# Pieces of a text

Pieces given by byte ranges, and pieces between breaks, such as lines. A range that leaves the
text or cuts a character in two is no piece.
-/
namespace PayFormula.Text

/-- What is left of a text after its first `n` bytes. -/
def dropBytes? : Nat → List Char → Option (List Char)
  | 0, text => some text
  | _ + 1, [] => none
  | n + 1, c :: text => if c.utf8Size ≤ n + 1 then dropBytes? (n + 1 - c.utf8Size) text else none

/-- The first `n` bytes of a text. -/
def takeBytes? : Nat → List Char → Option (List Char)
  | 0, _ => some []
  | _ + 1, [] => none
  | n + 1, c :: text =>
    if c.utf8Size ≤ n + 1 then (takeBytes? (n + 1 - c.utf8Size) text).map (c :: ·) else none

/-- The bytes from `start` up to but not including `stop`. -/
def slice? (text : List Char) (start stop : Nat) : Option (List Char) :=
  if start ≤ stop then (dropBytes? start text).bind (takeBytes? (stop - start)) else none

/-- The pieces between breaks, one more than there are breaks. -/
def pieces (isBreak : Char → Bool) : List Char → List (List Char)
  | [] => [[]]
  | c :: text =>
    if isBreak c then [] :: pieces isBreak text
    else match pieces isBreak text with
      | [] => [[c]]
      | piece :: others => (c :: piece) :: others

theorem pieces_ne_nil (isBreak : Char → Bool) (text : List Char) :
    pieces isBreak text ≠ [] := by
  cases text with
  | nil => simp [pieces]
  | cons c text =>
    rw [pieces]
    split
    · simp
    · split <;> simp

/-- The pieces between newlines. -/
def lines (text : List Char) : List (List Char) := pieces (· = '\n') text

end PayFormula.Text
