import PayFormula.Text.Mark
import PayFormula.Text.Printable
import PayFormula.Uri.Folding.Table

/-!
# Folding of host names

Hosts are compared by what the characters of their names count as: a character by
itself, as other characters, or as nothing; some characters no name holds.
-/
namespace PayFormula.Uri.Folding

def isIn (ranges : List (Nat × Nat)) (c : Char) : Bool :=
  ranges.any fun (low, high) => low ≤ c.toNat && c.toNat ≤ high

/-- Characters that can be seen and marks can stand in a name, and so can the two signs
without width that join letters or keep them apart. -/
def isRefused (c : Char) : Bool :=
  isIn refused c || Text.isHidden c && !Text.isMark c && c ∉ ['\u200c', '\u200d']

/-- What a letter in one of the rows counts as. -/
def letter? (c : Char) : Option (List Char) :=
  let n := c.toNat
  letters.findSome? fun (low, high, step, target) =>
    if low ≤ n ∧ n ≤ high ∧ (n - low) % step = 0 then some [Char.ofNat (target + (n - low))]
    else none

/-- What a character counts as, if a name can hold it. -/
def fold? (c : Char) : Option (List Char) :=
  if c.toNat < 0x80 then some [c.toLower]
  else if isIn ignored c then some []
  else
    match (letter? c).or (Text.Spelling.find? forms c) with
    | some folded => some folded
    | none => if isRefused c then none else some [c]

/-- Characters that count as themselves. -/
def isFolded (c : Char) : Bool := fold? c == some [c]

end PayFormula.Uri.Folding
