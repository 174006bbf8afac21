import PayFormula.Text.Slice
import PayFormula.Uri.Escape

/-!
# Paths of URIs

A path is a list of steps. A step that is a dot stays where it is, and two dots
lead back; a step that names a drive is not left again. Tabs and line ends count for
nothing, except behind the drive at the start of a file's path.
-/
namespace PayFormula.Uri.Route

/-- The number of dots that a step consists of, each by itself or as an escape. -/
def dots? : List Char → Option Nat
  | [] => some 0
  | '.' :: text | '%' :: '2' :: 'e' :: text | '%' :: '2' :: 'E' :: text => (dots? text).map (· + 1)
  | _ => none

/-- A letter and a colon or bar name a drive. -/
def isDrive : List Char → Bool
  | [c, mark] => c.isAlpha && (mark == ':' || mark == '|')
  | _ => false

/-- A drive, perhaps with a backslash behind it, is not left by two dots. -/
def isKept (step : List Char) : Bool :=
  isDrive (step.take 2) && (step.drop 2).head?.all (· == '\\')

/-- Tabs and line ends. -/
def isBreak (c : Char) : Bool := c ∈ ['\t', '\n', '\r']

/-- Breaks in a text count for nothing. -/
def unbroken (text : List Char) : List Char := text.filter (!isBreak ·)

/-- A drive at the start of a step and what a break parts from it. -/
def parted? (step : List Char) : Option (List Char × List Char) :=
  let chunks := (Text.pieces isBreak step).filter (!·.isEmpty)
  [1, 2].findSome? fun n =>
    let drive := (chunks.take n).flatten
    if isDrive drive && drive.getLast? == some ':' && n < chunks.length then
      some (drive, (chunks.drop n).flatten)
    else none

/-- How far a path has been followed. -/
structure Trail where
  /-- The steps, the last of which comes first. -/
  before : List (List Char)
  /-- Whether a drive was named where the path starts. -/
  hasDrive : Bool
  deriving DecidableEq, Repr, Inhabited

/-- Goes on by a step. -/
def walk (before : List (List Char)) (step : List Char) : List (List Char) :=
  match dots? step, before with
  | some 1, before => before
  | some 2, last :: others => if isKept last then last :: others else others
  | some 2, [] => []
  | _, before => step :: before

/-- Goes on by a step in a file's path. Where the path starts a drive is named, with a
colon in any case, and what a break parts from it is a step of its own. -/
def Trail.walkFile (trail : Trail) (raw : List Char) : Trail :=
  let step := escape isForeignToPath (unbroken raw)
  if !trail.before.isEmpty then { trail with before := walk trail.before step }
  else match parted? raw with
    | some (drive, rest) => { trail with before := [escape isForeignToPath rest, drive] }
    | none =>
      if isDrive step then ⟨[step.take 1 ++ [':']], true⟩
      else { trail with before := walk [] step }

/-- Follows the path after its first slash. Dots at its end leave nothing behind the
last slash. -/
def ofText (isSpecial isFile : Bool) (text : List Char) : Trail :=
  let raw := Text.pieces (fun c => c == '/' || isSpecial && c == '\\') text
  let isDots (raw : List Char) := (dots? (unbroken raw)).any fun n => n == 1 || n == 2
  let raw := if raw.getLast?.any isDots then raw ++ [[]] else raw
  if isFile then raw.foldl Trail.walkFile ⟨[], false⟩
  else ⟨(raw.map fun raw => escape isForeignToPath (unbroken raw)).foldl walk [], false⟩

/-- The steps of a path from the first on. -/
def Trail.steps (trail : Trail) : List (List Char) := trail.before.reverse

/-- Steps without the empty ones in front, the last one apart. -/
def trim (steps : List (List Char)) : List (List Char) :=
  match steps.dropWhile List.isEmpty with
  | [] => [[]]
  | steps => steps

end PayFormula.Uri.Route
