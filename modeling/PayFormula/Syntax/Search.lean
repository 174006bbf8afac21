import PayFormula.Syntax.Node

/-!
# Searching by position

The nodes around a position, outermost first: from the program downwards, each
time to the first child whose span contains the position. A search refuses a
position outside the program, and then gives up if it has been cancelled.
-/
namespace PayFormula

inductive SearchError where
  | outOfRange (place : Position)
  | aborted
  deriving DecidableEq, Repr, Inhabited

def SearchError.message : SearchError → String
  | .outOfRange place => "position " ++ place.render ++ " is outside the document"
  | .aborted => "search aborted"

/-- The way from a node down to a position, without the node itself. -/
def Node.pathTo (place : Position) (node : Node) : List Node :=
  match _h : node.children.find? (·.span.contains place) with
  | some child => child :: child.pathTo place
  | none => []
termination_by node.size
decreasing_by exact Node.size_lt_of_mem_children (List.mem_of_find?_eq_some ‹_›)

namespace Program

/-- Every node that contains a position, outermost first, without the program. -/
def enclosing (p : Program) (place : Position) (cancelled : Bool) :
    Except SearchError (List Node) :=
  if !p.span.contains place then .error (.outOfRange place)
  else if cancelled then .error .aborted
  else .ok ((Node.program p).pathTo place)

/-- The innermost node that contains a position. -/
def nodeAt (p : Program) (place : Position) (cancelled : Bool) : Except SearchError Node :=
  (p.enclosing place cancelled).map fun path => path.getLastD (.program p)

end Program

end PayFormula
