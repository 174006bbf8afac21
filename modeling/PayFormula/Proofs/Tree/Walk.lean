import Mathlib.Data.List.Basic
import PayFormula.Syntax.Node

/-!
# Walks

A walk is a node and the walks of its children, whatever the depth it starts at.
-/
namespace PayFormula.Node

theorem map_walkFrom (node : Node) (depth depth' : Nat) :
    (node.walkFrom depth).map (·.2) = (node.walkFrom depth').map (·.2) := by
  induction node using Node.induction generalizing depth depth' with
  | step node ih =>
    rw [walkFrom_eq, walkFrom_eq, List.map_cons, List.map_cons, List.map_flatMap,
      List.map_flatMap]
    congr 1
    exact List.flatMap_congr fun child hchild => ih child hchild _ _

theorem walk_eq (node : Node) : node.walk = node :: node.children.flatMap walk := by
  rw [walk, walkFrom_eq, List.map_cons, List.map_flatMap]
  congr 1
  exact List.flatMap_congr fun child _ => child.map_walkFrom _ _

end PayFormula.Node
