import PayFormula.Evaluate
import PayFormula.Report.Tokens
import PayFormula.Report.Tree
import PayFormula.Text.Character

/-!
# Line by line

A conversation in which each line is a formula of its own. A formula is answered
with what is known of its value or with its errors, `:tokens` and `:ast` in front
of it ask for its tokens or its tree, and `.q` ends the conversation.
-/
namespace PayFormula.Repl

def greeting : String := "Welcome to WFLang. Enter a formula, or '.q' to quit.\n"

def farewell : String := "Bye.\n"

/-- The lines on the errors of a formula. -/
def errorLines (parsed : Parsed) : String :=
  String.join (parsed.errors.map fun e => e.describe ++ "\n")

def tokenLines (source : List Char) : String := Report.tokens (String.ofList source) .simple

def tree (source : List Char) : String := Report.tree (String.ofList source)

def value (source : List Char) : String :=
  let parsed := parse (String.ofList source)
  if parsed.errors.isEmpty then
    match (evaluate parsed.program).value with
    | some object => "=> " ++ object.render ++ "\n"
    | none => ""
  else errorLines parsed

/-- The answer to a line that is neither blank nor the last. -/
def answer (line : List Char) : String :=
  match ":tokens".toList.isPrefixOf? line, ":ast".toList.isPrefixOf? line with
  | some source, _ => tokenLines (Text.trimLeft source)
  | none, some source => tree (Text.trimLeft source)
  | none, none => value line

/-- What a line leads to. -/
inductive Reply where
  | say (text : String)
  | stop (text : String)
  /-- The line is no UTF-8 text. -/
  | refuse
  deriving DecidableEq, Repr, Inhabited

def reply (line : ByteArray) : Reply :=
  match String.fromUTF8? line with
  | none => .refuse
  | some text =>
    let line := Text.trim text.toList
    if line.map Char.toLower = ['.', 'q'] then .stop farewell
    else if line.isEmpty then .say ""
    else .say (answer line)

/-- Whether a line holds a formula to be parsed, and not only to be cut into tokens. -/
def isFormula (line : ByteArray) : Bool :=
  match String.fromUTF8? line with
  | none => false
  | some text =>
    let line := Text.trim text.toList
    !line.isEmpty && (":tokens".toList.isPrefixOf? line).isNone

/-- The lines of an input, without their newlines; what follows the last newline
is a line unless it is empty. -/
def lines : List UInt8 → List (List UInt8)
  | [] => []
  | b :: input =>
    if b = 10 then [] :: lines input
    else match lines input with
      | [] => [[b]]
      | line :: others =>
        if input.head? = some 10 then [b] :: others else (b :: line) :: others

structure Transcript where
  text : String
  /-- How many formulas have been parsed. -/
  formulas : Nat
  /-- Whether a line was refused; nothing after it is read. -/
  refused : Bool
  deriving DecidableEq, Repr, Inhabited

def transcriptFrom (said : String) (formulas : Nat) : List (List UInt8) → Transcript
  | [] => ⟨said, formulas, false⟩
  | line :: others =>
    match reply ⟨line.toArray⟩ with
    | .say text =>
      transcriptFrom (said ++ text) (formulas + (isFormula ⟨line.toArray⟩).toNat) others
    | .stop text => ⟨said ++ text, formulas, false⟩
    | .refuse => ⟨said, formulas, true⟩

def transcript (input : ByteArray) : Transcript :=
  transcriptFrom greeting 0 (lines input.toList)

def refusal : String := "stream did not contain valid UTF-8"

end PayFormula.Repl
