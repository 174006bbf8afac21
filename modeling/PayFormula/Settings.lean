import PayFormula.Settings.Toml.Document
import PayFormula.Text.Character

/-!
# Settings

The settings of the tools and the layers they come from: the defaults, then
files and the environment in the order in which they were added, then single
overrides. A later layer replaces single values of the earlier ones.
-/
namespace PayFormula

inductive LogLevel where
  | error
  | warn
  | info
  | debug
  | trace
  deriving DecidableEq, Repr, Inhabited

namespace LogLevel

def name : LogLevel → String
  | .error => "error"
  | .warn => "warn"
  | .info => "info"
  | .debug => "debug"
  | .trace => "trace"

def ofName? (name : String) : Option LogLevel :=
  match Text.lowercase name with
  | "error" => some .error
  | "warn" => some .warn
  | "info" => some .info
  | "debug" => some .debug
  | "trace" => some .trace
  | _ => none

end LogLevel

structure Settings where
  publishDiagnostics : Bool
  /-- Whether variables are completed. -/
  offersVariables : Bool
  /-- Whether keywords are completed. -/
  offersKeywords : Bool
  level : LogLevel
  deriving DecidableEq, Repr, Inhabited

namespace Settings

def defaults : Settings := ⟨true, true, false, .warn⟩

inductive LoadError where
  /-- A file is no TOML document. -/
  | badFile
  /-- A file that has to be there is missing. -/
  | noFile
  /-- A value cannot be read as a flag. -/
  | badType
  /-- A value is missing, out of place or not among those allowed. -/
  | badValue
  | badKey
  deriving DecidableEq, Repr, Inhabited

/-- The settings as a layer. -/
def toValue (s : Settings) : Value :=
  .table [
    ("server", .table [("publish_diagnostics", .flag s.publishDiagnostics)]),
    ("completion", .table [
      ("variables", .flag s.offersVariables),
      ("keywords", .flag s.offersKeywords)]),
    ("logging", .table [("level", .text s.level.name)])]

def required {α : Type} : Option α → Except LoadError α
  | some found => .ok found
  | none => .error .badValue

/-- A field of a table. In a list the item at the field's place stands for it. -/
def fieldOf (value : Value) (place : Nat) (name : String) : Except LoadError Value :=
  required (match value with
    | .table fields => fields.lookup name
    | .array items => items[place]?
    | _ => none)

def flagOf : Value → Except LoadError Bool
  | .flag value => .ok value
  | .text text =>
    let word := Text.lowercase text
    if word ∈ ["1", "true", "on", "yes"] then .ok true
    else if word ∈ ["0", "false", "off", "no"] then .ok false
    else .error .badType
  | _ => .error .badType

/-- A level is named by a text or by the one field of a table. -/
def levelOf (value : Value) : Except LoadError LogLevel :=
  let name? := match value with
    | .text name => some name
    | .table [(name, _)] => some name
    | _ => none
  match name?.bind LogLevel.ofName? with
  | some level => .ok level
  | none => .error .badValue

/-- Whether variables and keywords are completed. The flags that a table has are read
before one that it lacks is missed; a list is read in turn. -/
def completionOf (value : Value) : Except LoadError (Bool × Bool) := do
  match value with
  | .table fields =>
    let ofVariables ← (fields.lookup "variables").mapM flagOf
    let ofKeywords ← (fields.lookup "keywords").mapM flagOf
    return (← required ofVariables, ← required ofKeywords)
  | value =>
    let ofVariables ← flagOf (← fieldOf value 0 "variables")
    return (ofVariables, ← flagOf (← fieldOf value 1 "keywords"))

def ofValue (value : Value) : Except LoadError Settings := do
  let server ← fieldOf value 0 "server"
  let completion ← fieldOf value 1 "completion"
  let logging ← fieldOf value 2 "logging"
  let publishDiagnostics ← flagOf (← fieldOf server 0 "publish_diagnostics")
  let (offersVariables, offersKeywords) ← completionOf completion
  return {
    publishDiagnostics, offersVariables, offersKeywords
    level := ← levelOf (← fieldOf logging 0 "level") }

/-- Where values come from, defaults and overrides apart. -/
inductive Source where
  | file (text : String)
  | missingFile (isRequired : Bool)
  | environment
  deriving DecidableEq, Repr, Inhabited

/-- Writes a point for two underscores. -/
def splitUnderscores : List Char → List Char
  | '_' :: '_' :: name => '.' :: splitUnderscores name
  | c :: name => c :: splitUnderscores name
  | [] => []

/-- The key that an environment variable sets. -/
def keyOfVariable? (name : String) : Option String :=
  ("wflang_".toList.isPrefixOf? (lowerName name).toList).map fun rest =>
    String.ofList (splitUnderscores rest)

/-- An environment variable holds a flag if it is spelled as one or is a number. -/
def valueOfVariable (text : String) : Value :=
  match Text.lowercase text with
  | "true" => .flag true
  | "false" => .flag false
  | _ =>
    match Numeral.flag? text.toList with
    | some flag => .flag flag
    | none => .text text

/-- The keys and values of the environment; a key has the value given last. -/
def ofEnvironment (environment : List (String × String)) : List (String × Value) :=
  environment.foldl (fun found (name, text) =>
    match keyOfVariable? name with
    | some key => put key (valueOfVariable text) found
    | none => found) []

/-- The values of a source, each under the text of a key. -/
def Source.read (environment : List (String × String)) :
    Source → Except LoadError (List (String × Value))
  | .file text =>
    match Toml.fields? text with
    | some fields => .ok fields
    | none => .error .badFile
  | .missingFile isRequired => if isRequired then .error .noFile else .ok []
  | .environment => .ok (ofEnvironment environment)

/-- The layers over the defaults. -/
structure Loader where
  sources : List Source
  /-- The environment, as it is when the layers are put together. -/
  environment : List (String × String)
  overrides : List (Key × Value)
  deriving Repr, Inhabited

namespace Loader

def empty : Loader := ⟨[], [], []⟩

def add (loader : Loader) (source : Source) : Loader :=
  { loader with sources := loader.sources ++ [source] }

def withVariable (loader : Loader) (name text : String) : Loader :=
  { loader with environment := put name text loader.environment }

/-- Overrides what a key names. -/
def set (loader : Loader) (key : String) (value : Value) : Except LoadError Loader :=
  match Key.ofString? key with
  | some key => .ok { loader with overrides := loader.overrides ++ [(key, value)] }
  | none => .error .badKey

/-- Puts the values of a source over those of the layers below. -/
def overlay (below : Value) (fields : List (String × Value)) : Value :=
  fields.foldl (fun root (name, value) => root.set value (Key.ofName name)) below

def merged (loader : Loader) : Except LoadError Value := do
  let layers ← loader.sources.mapM (Source.read loader.environment)
  let root := layers.foldl overlay defaults.toValue
  return loader.overrides.foldl (fun root (key, value) => root.set value key) root

def load (loader : Loader) : Except LoadError Settings := do
  ofValue (← loader.merged)

end Loader

end Settings

end PayFormula
