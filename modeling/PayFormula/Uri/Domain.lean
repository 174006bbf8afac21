import PayFormula.Text.Composition
import PayFormula.Uri.Direction
import PayFormula.Uri.Joining
import PayFormula.Uri.Punycode

/-!
# Domain names

The form in which the names of hosts are compared: folded, composed and written in
ASCII, with labels beyond ASCII as Punycode after `xn--`. A label that comes so
written has to be the form of what it shows.
-/
namespace PayFormula.Uri.Domain

/-- What no name holds. -/
def isForbidden (c : Char) : Bool :=
  c.toNat ≤ 0x20 || c = '\x7f' ||
    c ∈ ['%', '#', '/', ':', '<', '>', '?', '@', '[', '\\', ']', '^', '|']

def isAscii (text : List Char) : Bool := text.all (·.toNat < 0x80)

/-- A label and how it is written. -/
structure Label where
  shown : List Char
  written : List Char
  deriving DecidableEq, Repr, Inhabited

namespace Label

/-- What stands before Punycode. -/
def mark : List Char := ['x', 'n', '-', '-']

/-- A label does not start with a mark, and signs that join or keep apart letters are
in their places. -/
def isSound (label : List Char) : Bool :=
  !label.head?.any Text.isMark && Joining.isSound label

/-- At most this many characters are written as Punycode, and at most twice as many
are read. -/
def longest : Nat := 1000

/-- What Punycode shows: a label that is in its normal form and not all ASCII. -/
def show? (code : List Char) : Option (List Char) := do
  if code.getLast? = some '-' ∨ 2 * longest < code.length ∨ !isAscii code then none
  else
    let label ← Punycode.decode? code
    if isAscii label || mark.isPrefixOf label || !label.all Folding.isFolded ||
        Text.Composition.normal label ≠ label || !isSound label then none
    else return label

/-- Reads a label of a folded name. -/
def ofChars? (text : List Char) : Option Label :=
  match mark.isPrefixOf? text with
  | some code => (show? code).map (⟨·, text⟩)
  | none =>
    if isAscii text then some ⟨text, text⟩
    else if isSound text && text.length ≤ longest then
      some ⟨text, mark ++ Punycode.encode text⟩
    else none

end Label

/-- Whether the labels of a name agree in how they are read. -/
def agree (labels : List Label) : Bool :=
  !labels.any (·.shown.any Direction.isLeftward) || labels.all (Direction.isSound ·.shown)

/-- The form of a name in which it is compared. -/
def normal? (name : List Char) : Option (List Char) := do
  let folded := Text.Composition.normal (← name.mapM Folding.fold?).flatten
  if folded.any isForbidden then none
  else
    let labels ← (Text.pieces (· = '.') folded).mapM Label.ofChars?
    if agree labels then return ['.'].intercalate (labels.map Label.written) else none

end PayFormula.Uri.Domain
