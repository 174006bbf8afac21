import PayFormula.Document.Basic

/-!
# Definitions and renaming

The declaration that the identifier under the cursor refers to, and the edits
that give it and everything that refers to it another name.
-/
namespace PayFormula

structure TextEdit where
  span : Span
  newText : String
  deriving DecidableEq, Repr, Inhabited

inductive RenameError where
  | reserved (name : String)
  | invalidName (name : String)
  | aborted
  deriving DecidableEq, Repr, Inhabited

def RenameError.message : RenameError → String
  | .reserved name => "`" ++ name ++ "` is a reserved word"
  | .invalidName name => "`" ++ name ++ "` is not a valid identifier"
  | .aborted => "rename aborted"

/-- A name has to be one identifier token and not the blank one. -/
def validateName (name : String) : Except RenameError Unit :=
  match tokenize name with
  | [t] =>
    if t.byteLength ≠ name.utf8ByteSize then .error (.invalidName name)
    else if t.kind = .ident then
      if t.literal = "_" then .error (.invalidName name) else .ok ()
    else if Word.classify name ≠ .ident then .error (.reserved name)
    else .error (.invalidName name)
  | _ => .error (.invalidName name)

namespace Document

/-- The variable that the identifier under the cursor refers to, nothing if
there is none or the cursor is outside the document. -/
def targetAt (d : Document) (place : Position) (cancelled : Bool) :
    Except SearchError (Option Variable) :=
  match d.program.nodeAt place cancelled with
  | .ok node => .ok (node.ident?.bind d.resolve?)
  | .error (.outOfRange _) => .ok none
  | .error .aborted => .error .aborted

/-- The declared name of the variable under the cursor. -/
def definition (d : Document) (place : Position) (cancelled : Bool) :
    Except SearchError (Option Span) :=
  (d.targetAt place cancelled).map (·.map VariableOf.nameSpan)

/-- Every identifier that refers to a variable, its declared name included. -/
def references (d : Document) (target : Variable) : List Ident :=
  ((Node.program d.program).walk.filterMap Node.ident?).filter fun i =>
    i.name == target.name && (d.resolve? i).any (·.nameSpan == target.nameSpan)

def rename (d : Document) (place : Position) (newName : String) (cancelled : Bool) :
    Except RenameError (Option (List TextEdit)) := do
  validateName newName
  match d.targetAt place cancelled with
  | .ok none => return none
  | .ok (some target) => return some ((d.references target).map fun i => ⟨i.span, newName⟩)
  | .error _ => throw .aborted

end Document

end PayFormula
