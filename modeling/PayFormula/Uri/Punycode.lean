/-!
# Punycode

Labels of host names beyond ASCII, written in ASCII: first the ASCII characters,
then, in increasing order, the places of the others as numbers of variable length.
How many digits a number takes adapts to the numbers before it.
-/
namespace PayFormula.Uri.Punycode

/-- The digits of base 36: the letters, then the decimal digits. -/
def digit (n : Nat) : Char := Char.ofNat (if n < 26 then 0x61 + n else 0x30 + n - 26)

def digitValue? (c : Char) : Option Nat :=
  if 'a' ≤ c ∧ c ≤ 'z' then some (c.toNat - 0x61)
  else if '0' ≤ c ∧ c ≤ '9' then some (c.toNat - 0x30 + 26)
  else none

/-- A digit below the threshold of its place ends a number. -/
def threshold (bias place : Nat) : Nat := min 26 (max 1 (place - bias))

theorem threshold_pos (bias place : Nat) : 1 ≤ threshold bias place := by
  unfold threshold; omega

/-- The digits of a number from a place on; places are 36 apart. -/
def digits (bias place n : Nat) : List Char :=
  let t := threshold bias place
  if n < t then [digit n]
  else digit (t + (n - t) % (36 - t)) :: digits bias (place + 36) ((n - t) / (36 - t))
termination_by n
decreasing_by
  have := threshold_pos bias place
  exact Nat.lt_of_le_of_lt (Nat.div_le_self _ _) (by omega)

/-- Where a number stops fitting into few digits. -/
def shrink (place n : Nat) : Nat :=
  if 455 < n then shrink (place + 36) (n / 35) else place + 36 * n / (n + 38)
termination_by n
decreasing_by exact Nat.div_lt_self (by omega) (by decide)

/-- The bias after a number, when so many characters have their places. -/
def adapt (n count : Nat) (isFirst : Bool) : Nat :=
  let n := if isFirst then n / 700 else n / 2
  shrink 0 (n + n / count)

/-! ## Writing -/

/-- How far a label has been written. -/
structure Draft where
  written : List Char
  /-- The places passed since the last number. -/
  passed : Nat
  bias : Nat
  /-- How many characters have their places, and how many of them are ASCII. -/
  count : Nat
  asciiCount : Nat
  deriving DecidableEq, Repr, Inhabited

/-- Passes a character of the label while the places of `code` are written. -/
def Draft.pass (code : Nat) (draft : Draft) (c : Char) : Draft :=
  if c.toNat < code then { draft with passed := draft.passed + 1 }
  else if c.toNat = code then
    { draft with
      written := draft.written ++ digits draft.bias 36 draft.passed
      passed := 0
      bias := adapt draft.passed (draft.count + 1) (draft.count = draft.asciiCount)
      count := draft.count + 1 }
  else draft

/-- Writes the places of increasing codes, the first of which is at least `next`. -/
def Draft.add (label : List Char) : Nat → List Nat → Draft → Draft
  | _, [], draft => draft
  | next, code :: codes, draft =>
    let passed := draft.passed + (code - next) * (draft.count + 1)
    let draft := label.foldl (Draft.pass code) { draft with passed }
    Draft.add label (code + 1) codes { draft with passed := draft.passed + 1 }

/-- Writes a label. -/
def encode (label : List Char) : List Char :=
  let ascii := label.filter (·.toNat < 0x80)
  let codes := ((label.filter (0x80 ≤ ·.toNat)).map Char.toNat).mergeSort.eraseDups
  let start := if ascii.isEmpty then [] else ascii ++ ['-']
  (Draft.add label 0x80 codes ⟨start, 0, 72, ascii.length, ascii.length⟩).written

/-! ## Reading -/

/-- Numbers are at most this. -/
def greatest : Nat := 0xffffffff

/-- Reads a number from a place on and adds it to a sum. Its next digit counts `weight`
times. -/
def readNumber? (bias : Nat) : List Char → Nat → Nat → Nat → Option (Nat × List Char)
  | [], _, _, _ => none
  | c :: text, place, weight, sum => do
    let n ← digitValue? c
    let sum := sum + n * weight
    let t := threshold bias place
    if greatest < sum then none
    else if n < t then some (sum, text)
    else if greatest < weight * (36 - t) then none
    else readNumber? bias text (place + 36) (weight * (36 - t)) sum

theorem length_lt_of_readNumber? {bias place weight sum : Nat} {text : List Char}
    {found : Nat × List Char} (h : readNumber? bias text place weight sum = some found) :
    found.2.length < text.length := by
  induction text generalizing place weight sum with
  | nil => simp [readNumber?] at h
  | cons c text ih =>
    rw [readNumber?] at h
    obtain ⟨n, -, h⟩ := Option.bind_eq_some_iff.mp h
    dsimp only at h
    split at h
    · cases h
    · split at h
      · cases h
        simp
      · split at h
        · cases h
        · have := ih h
          simp only [List.length_cons]
          omega

/-- Puts characters into their places. Codes and places are counted on together: past
the end of the text a place stands for the first one and the next code. -/
def fill? (bias code place : Nat) (shown : List Char) (text : List Char) : Option (List Char) :=
  match text with
  | [] => some shown
  | c :: text =>
    match _h : readNumber? bias (c :: text) 36 1 place with
    | none => none
    | some (sum, rest) =>
      let count := shown.length + 1
      let code := code + sum / count
      if code.isValidChar then
        fill? (adapt (sum - place) count (place == 0)) code (sum % count + 1)
          (shown.insertIdx (sum % count) (Char.ofNat code)) rest
      else none
termination_by text.length
decreasing_by exact length_lt_of_readNumber? _h

/-- Reads a label. The last hyphen, unless it comes first, parts the ASCII characters
from the numbers. -/
def decode? (text : List Char) : Option (List Char) :=
  let numbers := (text.reverse.takeWhile (· ≠ '-')).reverse
  let ascii := text.take (text.length - numbers.length - 1)
  if ascii.isEmpty then fill? 72 0x80 0 [] text else fill? 72 0x80 0 ascii numbers

end PayFormula.Uri.Punycode
