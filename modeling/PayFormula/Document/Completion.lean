import PayFormula.Document.Basic

/-!
# Completion

The words that can be written at a position: every builtin function, the
variables declared before the position, and the keywords. Of several variables
of one name the latest is offered.
-/
namespace PayFormula

inductive CompletionKind where
  | function
  | variableName
  | keyword
  deriving DecidableEq, Repr, Inhabited

structure Completion where
  label : String
  detail : Option String
  kind : CompletionKind
  insertText : String
  /-- Markdown text. -/
  documentation : Option String
  deriving DecidableEq, Repr, Inhabited

/-- Which groups are offered besides the functions. -/
structure CompletionOptions where
  withVariables : Bool
  withKeywords : Bool
  deriving DecidableEq, Repr, Inhabited

namespace Completion

def ofFunction (f : Function) : Completion :=
  ⟨f.displayName, some f.signature, .function, f.displayName, some f.docstring⟩

def ofVariable (v : Variable) : Completion :=
  ⟨v.name, some v.type.name, .variableName, v.name, none⟩

def ofKeyword (word : String) : Completion := ⟨word, none, .keyword, word, none⟩

/-- Leaves out the variables whose name a later one has too. -/
def latest : List Variable → List Variable
  | [] => []
  | v :: later => if later.any (·.name == v.name) then latest later else v :: latest later

end Completion

namespace Document

/-- The variables whose declared name starts before a position. -/
def declaredBefore (d : Document) (place : Position) : List Variable :=
  d.declared.filter fun v => decide (v.nameSpan.first < place)

def completions (d : Document) (place : Position) (options : CompletionOptions) : List Completion :=
  Catalog.functions.map .ofFunction ++
    (if options.withVariables then (Completion.latest (d.declaredBefore place)).map .ofVariable
    else []) ++
    (if options.withKeywords then Word.keywords.map fun (word, _) => .ofKeyword word else [])

end Document

end PayFormula
