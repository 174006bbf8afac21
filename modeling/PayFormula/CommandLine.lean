import PayFormula.Repl
import PayFormula.Report.Check

/-!
# Command line

What the words of a command line ask for, and what the answer is once the file
that they name has been read. The command line itself touches neither files nor
terminals.
-/
namespace PayFormula

inductive Command where
  | tokens (path : String) (format : TokenFormat)
  | tree (path : String)
  | check (path : String)
  | repl
  deriving DecidableEq, Repr, Inhabited

inductive Invocation where
  /-- `isVerbose` says whether to note what is parsed. -/
  | command (asked : Command) (isVerbose : Bool)
  | version
  | help
  /-- Words that ask for nothing. -/
  | misuse
  deriving DecidableEq, Repr, Inhabited

namespace Invocation

inductive Verb where
  | tokens
  | tree
  | check
  | repl
  deriving DecidableEq, Repr, Inhabited

/-- What has been said of a command so far. -/
structure Request where
  verb : Verb
  path : Option String
  format : Option TokenFormat
  /-- Whether the next word names a format. -/
  awaitsFormat : Bool
  /-- Whether `--` has been read, after which no word is an option. -/
  isEscaped : Bool
  isVerbose : Bool
  deriving DecidableEq, Repr, Inhabited

/-- Where a word leads: to the next one, or to the end of the line. -/
inductive Step where
  | next (request : Request)
  | finish (invocation : Invocation)
  deriving DecidableEq, Repr, Inhabited

def Step.ofOption : Option Request → Step
  | some request => .next request
  | none => .finish .misuse

namespace Request

def ofVerb (verb : Verb) (isVerbose : Bool) : Request :=
  ⟨verb, none, none, false, false, isVerbose⟩

/-- Notes a format, which can be given once. -/
def withFormat? (said : Request) (name : String) : Option Request :=
  match said.format, TokenFormat.ofName? name with
  | none, some format => some { said with format := some format, awaitsFormat := false }
  | _, _ => none

/-- Notes a path, which can be given once. -/
def withPath? (said : Request) (path : String) : Option Request :=
  if said.verb = .repl ∨ said.path.isSome then none else some { said with path := some path }

/-- Reads a group of one-letter options; what follows `f` names a format. -/
def letters (said : Request) : List Char → Step
  | [] => .next said
  | 'v' :: others => letters { said with isVerbose := true } others
  | 'h' :: _ => .finish .help
  | 'f' :: name =>
    if said.verb ≠ .tokens then .finish .misuse
    else match name with
      | [] => .next { said with awaitsFormat := true }
      | '=' :: name => .ofOption (said.withFormat? (String.ofList name))
      | name => .ofOption (said.withFormat? (String.ofList name))
  | _ => .finish .misuse

/-- Reads an option that starts with two dashes. -/
def option (said : Request) (word : String) : Step :=
  if word = "--" then .next { said with isEscaped := true }
  else if word = "--verbose" then .next { said with isVerbose := true }
  else if word = "--help" then .finish .help
  else if said.verb ≠ .tokens then .finish .misuse
  else if word = "--format" then .next { said with awaitsFormat := true }
  else match "--format=".toList.isPrefixOf? word.toList with
    | some name => .ofOption (said.withFormat? (String.ofList name))
    | none => .finish .misuse

def word (said : Request) (word : String) : Step :=
  if said.awaitsFormat then .ofOption (said.withFormat? word)
  else if said.isEscaped then .ofOption (said.withPath? word)
  else match word.toList with
    | '-' :: '-' :: _ => said.option word
    | '-' :: c :: others => said.letters (c :: others)
    | _ => .ofOption (said.withPath? word)

/-- What has been asked for, if everything that it needs has been said. -/
def close (said : Request) : Invocation :=
  match said.verb, said.awaitsFormat, said.path with
  | .tokens, false, some path => .command (.tokens path (said.format.getD .json)) said.isVerbose
  | .tree, false, some path => .command (.tree path) said.isVerbose
  | .check, false, some path => .command (.check path) said.isVerbose
  | .repl, false, none => .command .repl said.isVerbose
  | _, _, _ => .misuse

/-- Reads the words after a verb. -/
def words (said : Request) : List String → Invocation
  | [] => said.close
  | word :: others =>
    match said.word word with
    | .next said => said.words others
    | .finish invocation => invocation

end Request

def verb? : String → Option Verb
  | "tokens" => some .tokens
  | "ast" => some .tree
  | "check" => some .check
  | "repl" => some .repl
  | _ => none

/-- Reads a group of one-letter options in front of a verb; only `v` lets the
line go on. -/
def leading : List Char → Option Invocation
  | [] => none
  | 'v' :: others => leading others
  | 'h' :: _ => some .help
  | 'V' :: _ => some .version
  | _ => some .misuse

/-- What a word in front of a verb asks for; nothing if the line goes on. -/
def front (word : String) : Option Invocation :=
  match word.toList with
  | '-' :: '-' :: _ =>
    if word = "--verbose" then none
    else if word = "--help" then some .help
    else if word = "--version" then some .version
    else some .misuse
  | '-' :: c :: others => leading (c :: others)
  | _ => some .misuse

/-- Help on nothing, or on a verb. -/
def helpOn : List String → Invocation
  | [] => .help
  | [topic] => if (verb? topic).isSome ∨ topic = "help" then .help else .misuse
  | _ => .misuse

/-- Reads a command line, of which only words that ask to be verbose have been read. -/
def ofRest (isVerbose : Bool) : List String → Invocation
  | [] => .misuse
  | word :: words =>
    match verb? word with
    | some verb => (Request.ofVerb verb isVerbose).words words
    | none =>
      if word = "help" then helpOn words
      else match front word with
        | none => ofRest true words
        | some invocation => invocation

/-- Reads a command line. -/
def ofWords : List String → Invocation := ofRest false

end Invocation

/-- Why a file has no text. -/
inductive ReadFailure where
  | missing
  | denied
  | directory
  /-- The path goes through something that is no directory. -/
  | notDirectory
  | nameTooLong
  | notText
  deriving DecidableEq, Repr, Inhabited

def ReadFailure.message : ReadFailure → String
  | .missing => "No such file or directory (os error 2)"
  | .denied => "Permission denied (os error 13)"
  | .directory => "Is a directory (os error 21)"
  | .notDirectory => "Not a directory (os error 20)"
  | .nameTooLong => "File name too long (os error 36)"
  | .notText => "stream did not contain valid UTF-8"

/-- What a run leaves behind. -/
structure Outcome where
  code : Nat
  out : String
  err : String
  deriving DecidableEq, Repr, Inhabited

namespace Command

/-- The file that a command reads. -/
def path? : Command → Option String
  | .tokens path _ => some path
  | .tree path => some path
  | .check path => some path
  | .repl => none

/-- The notes on so many formulas that have been parsed. -/
def notes (isVerbose : Bool) (formulas : Nat) : String :=
  if isVerbose then String.join (List.replicate formulas "parsed a formula\n") else ""

/-- The answer to a command on a source text. -/
def onSource (source : String) (isVerbose : Bool) : Command → Outcome
  | .tokens _ format => ⟨0, Report.tokens source format ++ "\n", ""⟩
  | .tree _ => ⟨0, Report.tree source, notes isVerbose 1⟩
  | .check path =>
    let report := Report.check path source
    ⟨if report.failed then 1 else 0, report.text, notes isVerbose 1⟩
  | .repl => default

def onInput (input : ByteArray) (isVerbose : Bool) : Outcome :=
  let said := Repl.transcript input
  let notes := notes isVerbose said.formulas
  if said.refused then ⟨2, said.text, notes ++ "REPL error: " ++ Repl.refusal ++ "\n"⟩
  else ⟨0, said.text, notes⟩

/-- Runs a command; `load` reads files and `input` is what is typed. -/
def run (command : Command) (load : String → Except ReadFailure ByteArray)
    (input : ByteArray) (isVerbose : Bool) : Outcome :=
  match command.path? with
  | none => onInput input isVerbose
  | some path =>
    match load path with
    | .error failure => unreadable path failure
    | .ok bytes =>
      match String.fromUTF8? bytes with
      | some source => command.onSource source isVerbose
      | none => unreadable path .notText
where
  unreadable (path : String) (failure : ReadFailure) : Outcome :=
    ⟨2, "", "Cannot read " ++ path ++ ": " ++ failure.message ++ "\n"⟩

end Command

namespace Invocation

def usage : String :=
  "Usage: wflang [-v] <COMMAND>\n\nCommands:\n" ++
    "  tokens <path> [--format json|simple]  Print the token stream\n" ++
    "  ast <path>                            Print the syntax tree\n" ++
    "  check <path>                          Report parse errors\n" ++
    "  repl                                  Inspect formulas line by line\n"

def run (invocation : Invocation) (load : String → Except ReadFailure ByteArray)
    (input : ByteArray) : Outcome :=
  match invocation with
  | .command asked isVerbose => asked.run load input isVerbose
  | .version => ⟨0, "wflang 0.1.0\n", ""⟩
  | .help => ⟨0, usage, ""⟩
  | .misuse => ⟨2, "", usage⟩

end Invocation

end PayFormula
