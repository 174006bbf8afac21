import PayFormula.Text.Composition.Table
import PayFormula.Text.Mark

/-!
# Composition

Of the texts that differ only in how letters and marks are put together, one is the
normal form: every character is taken apart, marks that can change places are put in
the order of their classes, and what makes one character becomes one again.
-/
namespace PayFormula.Text.Composition

/-! ## Syllables of Hangul -/

/-- Leading consonants, vowels and trailing consonants make syllables, which come in
the order of these. A syllable may lack a trailing consonant, so that the row of these
starts a place before the first one. -/
def firstLead : Nat := 0x1100

def firstVowel : Nat := 0x1161

def noTrail : Nat := 0x11a7

def firstSyllable : Nat := 0xac00

def leadCount : Nat := 19

def vowelCount : Nat := 21

def trailCount : Nat := 28

/-- Takes a trailing consonant or, where there is none, a vowel off a syllable. -/
def syllableParts? (c : Char) : Option (List Char) :=
  let n := c.toNat - firstSyllable
  let trail := n % trailCount
  let pair := n / trailCount
  if c.toNat < firstSyllable ∨ leadCount * vowelCount * trailCount ≤ n then none
  else if trail = 0 then
    some [Char.ofNat (firstLead + pair / vowelCount), Char.ofNat (firstVowel + pair % vowelCount)]
  else some [Char.ofNat (firstSyllable + pair * trailCount), Char.ofNat (noTrail + trail)]

def syllable? (first second : Char) : Option Char :=
  let lead := first.toNat - firstLead
  let vowel := second.toNat - firstVowel
  let syllable := first.toNat - firstSyllable
  let trail := second.toNat - noTrail
  if firstLead ≤ first.toNat ∧ lead < leadCount ∧
      firstVowel ≤ second.toNat ∧ vowel < vowelCount then
    some (Char.ofNat (firstSyllable + (lead * vowelCount + vowel) * trailCount))
  else if firstSyllable ≤ first.toNat ∧ syllable < leadCount * vowelCount * trailCount ∧
      syllable % trailCount = 0 ∧ noTrail < second.toNat ∧ trail < trailCount then
    some (Char.ofNat (first.toNat + trail))
  else none

/-! ## Taking apart and putting together -/

/-- The characters that a character stands for, one of which may be taken apart further. -/
def parts? (c : Char) : Option (List Char) :=
  if c.toNat < 0xc0 then none
  else
    let composite := (composites.find? (·.whole = c)).map fun found =>
      [found.first, found.second]
    (composite.or (Spelling.find? replacements c)).or (syllableParts? c)

/-- Takes a character apart in so many steps. -/
def takeApart : Nat → Char → List Char
  | 0, c => [c]
  | n + 1, c =>
    match parts? c with
    | some parts => parts.flatMap (takeApart n)
    | none => [c]

/-- Three steps take every character apart. -/
def decompose (text : List Char) : List Char := text.flatMap (takeApart 3)

/-- Puts a character in front of a text and behind those marks that have to precede it. -/
def insert (c : Char) : List Char → List Char
  | [] => [c]
  | d :: text =>
    if 0 < combiningClass d ∧ combiningClass d < combiningClass c then d :: insert c text
    else c :: d :: text

/-- Puts marks in the order of their classes; those of one class stay as they are. -/
def arrange (text : List Char) : List Char := text.foldr insert []

/-- The character that two characters make. -/
def whole? (first second : Char) : Option Char :=
  let found := composites.find? fun composite =>
    composite.second = second ∧ composite.first = first
  (found.map Composite.whole).or (syllable? first second)

/-- Puts a text together after a character and marks behind it, the last of which comes
first. A character becomes part of the one before unless a mark of its class or of a
greater one is between them. -/
def join (start : Char) (marks : List Char) : List Char → List Char
  | [] => start :: marks.reverse
  | c :: text =>
    let isNear := marks.head?.all fun last => combiningClass last < combiningClass c
    match if isNear then whole? start c else none with
    | some whole => join whole marks text
    | none =>
      if combiningClass c = 0 then start :: marks.reverse ++ join c [] text
      else join start (c :: marks) text

/-- Puts a text together; marks at its start stay as they are. -/
def compose (text : List Char) : List Char :=
  let marks := text.takeWhile (combiningClass · ≠ 0)
  marks ++ match text.drop marks.length with
    | [] => []
    | c :: text => join c [] text

/-- The normal form of a text. Characters before the first marks are in it. -/
def normal (text : List Char) : List Char :=
  if text.all (·.toNat < 0x300) then text else compose (arrange (decompose text))

end PayFormula.Text.Composition
