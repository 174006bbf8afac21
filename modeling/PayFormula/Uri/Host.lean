import PayFormula.Uri.Domain
import PayFormula.Uri.Escape

/-!
# Hosts

Hosts are names or addresses. A name whose last label is a number has to be an
address of four bytes; an address of eight groups stands in brackets.
-/
namespace PayFormula.Uri.Host

/-- Reads a number: of base sixteen after `0x`, of base eight after `0`. -/
def number? : List Char → Option Nat
  | [] => none
  | '0' :: 'x' :: digits | '0' :: 'X' :: digits => ofDigits? 16 digits
  | '0' :: digits => ofDigits? 8 digits
  | digits => ofDigits? 10 digits
where
  ofDigits? (base : Nat) (digits : List Char) : Option Nat :=
    if digits.all (Text.isDigitOf base) then some (Text.valueOf base digits) else none

/-- The labels of a name; a point at its end adds none. -/
def labels (name : List Char) : List (List Char) :=
  match (Text.pieces (· = '.') name).reverse with
  | [] :: labels => labels.reverse
  | labels => labels.reverse

def endsInNumber (name : List Char) : Bool :=
  match (labels name).getLast? with
  | some label => !label.isEmpty && label.all Char.isDigit || (number? label).isSome
  | none => false

def dotted (bytes : List Nat) : List Char := ['.'].intercalate (bytes.map (Nat.toDigits 10))

/-- Reads an address of four bytes. Its last number stands for all the bytes that
have no number of their own. -/
def fourBytes? (name : List Char) : Option (List Nat) := do
  let numbers ← (labels name).mapM number?
  let last ← numbers.getLast?
  let first := numbers.dropLast
  if numbers.length ≤ 4 ∧ first.all (· < 256) ∧ last < 1 <<< (8 * (4 - first.length)) then
    return first ++ ((List.range (4 - first.length)).map fun i => last >>> (8 * i) % 256).reverse
  else none

/-- Reads a decimal number of a byte. -/
def byte? (digits : List Char) : Option Nat :=
  let n := Text.valueOf 10 digits
  if digits.all Char.isDigit ∧ Nat.toDigits 10 n = digits ∧ n < 256 then some n else none

/-- Reads groups with colons between them; four bytes can stand for the last two. -/
def groups? (text : List Char) : Option (List Nat) := do
  let groups ← (Text.pieces (· = ':') text).mapM fun group =>
    if group.contains '.' then
      match (Text.pieces (· = '.') group).mapM byte? with
      | some [a, b, c, d] => some [256 * a + b, 256 * c + d]
      | _ => none
    else if !group.isEmpty && group.length ≤ 4 && group.all (Text.isDigitOf 16) then
      some [Text.valueOf 16 group]
    else none
  if groups.dropLast.all (·.length = 1) then return groups.flatten else none

/-- What stands before the first double colon, and what after it. -/
def splitDouble? : List Char → Option (List Char × List Char)
  | ':' :: ':' :: text => some ([], text)
  | c :: text => (splitDouble? text).map fun (before, after) => (c :: before, after)
  | [] => none

/-- Reads an address of eight groups. A double colon stands for the groups of zero
that are left out, one at least. -/
def eightGroups? (text : List Char) : Option (List Nat) := do
  let side (text : List Char) := if text.isEmpty then some [] else groups? text
  match splitDouble? text with
  | none => do
    let groups ← groups? text
    if groups.length = 8 then return groups else none
  | some (before, after) => do
    let first ← side before
    let last ← side after
    if before.contains '.' ∨ first.length + last.length > 7 then none
    else return first ++ List.replicate (8 - first.length - last.length) 0 ++ last

/-- How many groups of zero come first. -/
def zeros (groups : List Nat) : Nat := (groups.takeWhile (· = 0)).length

/-- Writes groups; the longest row of zeros, the first of several, gives way to a
double colon if it has more than one. -/
def bracketed (groups : List Nat) : List Char :=
  let join (groups : List Nat) := [':'].intercalate (groups.map (Nat.toDigits 16))
  let rows := (List.range groups.length).map fun i => zeros (groups.drop i)
  let longest := rows.foldl max 0
  let body :=
    if longest < 2 then join groups
    else
      let start := rows.idxOf longest
      join (groups.take start) ++ [':', ':'] ++ join (groups.drop (start + longest))
  '[' :: body ++ [']']

/-- Reads an address in brackets after the opening one. -/
def inBrackets? (text : List Char) : Option (List Char) :=
  if text.getLast? = some ']' then (eightGroups? text.dropLast).map bracketed else none

/-- The normal form of a host, where hosts have to be names or addresses. -/
def normal? : List Char → Option (List Char)
  | '[' :: text => inBrackets? text
  | text => do
    let text ← String.fromUTF8? ⟨(unescape text).toArray⟩
    let name ← Domain.normal? text.toList
    if name.isEmpty then none
    else if endsInNumber name then (fourBytes? name).map dotted
    else return name

def isForbidden (c : Char) : Bool :=
  c ∈ ['\x00', ' ', '#', '/', ':', '<', '>', '?', '@', '[', '\\', ']', '^', '|']

/-- The normal form of a host, where hosts can be anything. -/
def anything? : List Char → Option (List Char)
  | '[' :: text => inBrackets? text
  | text => if text.any isForbidden then none else some (escape isForeign text)

end PayFormula.Uri.Host
