import PayFormula.Settings.Toml.Quoted
import PayFormula.Settings.Toml.Table

/-!
# Documents of TOML

A document is a list of lines: headers, fields, comments and blank lines. It is
read as a whole or refused as a whole.
-/
namespace PayFormula.Settings.Toml

/-- What follows a comment, if one starts here; the newline stays. -/
def skipComment? : List Char → Option (List Char)
  | '#' :: text =>
    let body := text.takeWhile (· ≠ '\n')
    let rest := text.drop body.length
    let body := if !rest.isEmpty && body.getLast? = some '\r' then body.dropLast else body
    if body.all isPlain then some rest else none
  | text => some text

/-- Reads the end of a line: blanks, a comment, and a newline or the end. -/
def endOfLine? (text : List Char) : Option (List Char) := do
  let rest ← skipComment? (skipBlanks text)
  match rest with
  | [] => return []
  | rest => newline? rest

/-- Skips blanks, newlines and comments. Each step takes a character. -/
def skipGap? : Nat → List Char → Option (List Char)
  | 0, text => some text
  | n + 1, text =>
    match skipBlanks text with
    | '#' :: comment => (skipComment? ('#' :: comment)).bind (skipGap? n)
    | text =>
      match newline? text with
      | some text => skipGap? n text
      | none => some text

/-- The parts of a key and the levels of a value are at most this many. -/
def deepest : Nat := 79

def isBareKey (c : Char) : Bool := c.isAlphanum || c == '_' || c == '-'

def readName (text : List Char) : Option (String × List Char) :=
  let bare := text.takeWhile isBareKey
  if bare.isEmpty then (readLineString text).map fun (name, rest) => (String.ofList name, rest)
  else some (String.ofList bare, text.drop bare.length)

/-- Reads so many names, or fewer, with points between them; the last one is
handed out apart. -/
def readNames : Nat → List Char → Option (List String × String × List Char)
  | 0, _ => none
  | n + 1, text => do
    let (name, rest) ← readName (skipBlanks text)
    match skipBlanks rest with
    | '.' :: rest => do
      let (path, last, rest) ← readNames n rest
      return (name :: path, last, rest)
    | rest => return ([], name, rest)

def readKey (text : List Char) : Option (List String × String × List Char) :=
  readNames deepest text

def readText (text : List Char) : Option (Value × List Char) :=
  (readString text).map fun (body, rest) => (.text (String.ofList body), rest)

mutual

/-- Reads a value of so many levels at most. Each step takes a character. -/
def readValue : Nat → Nat → List Char → Option (Value × List Char)
  | 0, _, _ => none
  | n + 1, levels, text =>
    match text, levels with
    | '"' :: _, _ => readText text
    | '\'' :: _, _ => readText text
    | '[' :: text, levels + 1 =>
      (readItems n levels text).map fun (items, rest) => (.array items, rest)
    | '\x7b' :: text, levels + 1 =>
      match skipBlanks text with
      | '\x7d' :: rest => some (.table [], rest)
      | text => (readFields n levels .root text).map fun (table, rest) =>
        (.table (fieldValues table.fields), rest)
    | _, _ => readScalar text

/-- Reads the items of an array up to its bracket. -/
def readItems : Nat → Nat → List Char → Option (List Value × List Char)
  | 0, _, _ => none
  | n + 1, levels, text => do
    match ← skipGap? text.length text with
    | ']' :: rest => return ([], rest)
    | text => do
      let (item, rest) ← readValue n levels text
      match ← skipGap? rest.length rest with
      | ',' :: rest => do
        let (items, rest) ← readItems n levels rest
        return (item :: items, rest)
      | ']' :: rest => return ([item], rest)
      | _ => none

/-- Reads the fields of a table in braces up to the closing one. -/
def readFields : Nat → Nat → Table → List Char → Option (Table × List Char)
  | 0, _, _, _ => none
  | n + 1, levels, table, text => do
    let (path, name, rest) ← readKey text
    match rest with
    | '=' :: rest => do
      let (value, rest) ← readValue n levels (skipBlanks rest)
      let table ← table.insert? path name value
      match skipBlanks rest with
      | ',' :: rest => readFields n levels table rest
      | '\x7d' :: rest => return (table, rest)
      | _ => none
    | _ => none

end

/-- A document up to some line: its root, and the table that fields go to. -/
structure Draft where
  root : Table
  path : List String
  deriving Repr, Inhabited

/-- Reads a line that is not blank. -/
def Draft.line? (draft : Draft) (text : List Char) : Option (Draft × List Char) := do
  match text with
  | '[' :: '[' :: text => do
    let (path, name, rest) ← readKey text
    match rest with
    | ']' :: ']' :: rest =>
      return (⟨← draft.root.openItem? path name, path ++ [name]⟩, rest)
    | _ => none
  | '[' :: text => do
    let (path, name, rest) ← readKey text
    match rest with
    | ']' :: rest => return (⟨← draft.root.openTable? path name, path ++ [name]⟩, rest)
    | _ => none
  | text => do
    let (path, name, rest) ← readKey text
    match rest with
    | '=' :: rest => do
      let rest := skipBlanks rest
      let (value, rest) ← readValue (rest.length + 1) deepest rest
      let root ← draft.root.descend? false (·.insert? path name value) draft.path
      return ({ draft with root }, rest)
    | _ => none

/-- Reads lines to the end. Each step takes a line. -/
def readLines : Nat → Draft → List Char → Option Table
  | _, draft, [] => some draft.root
  | 0, _, _ => none
  | n + 1, draft, text =>
    match skipBlanks text with
    | [] => some draft.root
    | c :: text =>
      if c = '#' ∨ (newline? (c :: text)).isSome then
        (endOfLine? (c :: text)).bind (readLines n draft)
      else do
        let (draft, rest) ← draft.line? (c :: text)
        readLines n draft (← endOfLine? rest)

/-- The fields of a document, nothing if it is none. A mark of the byte order at
its start is passed over. A document is a table and no moment. -/
def fields? (text : String) : Option (List (String × Value)) := do
  let chars := match text.toList with
    | '\ufeff' :: chars => chars
    | chars => chars
  let root ← readLines chars.length ⟨.root, []⟩ chars
  match ← settle? (.table (fieldValues root.fields)) with
  | .table fields => return fields
  | _ => none

end PayFormula.Settings.Toml
