import PayFormula.Proofs.Scope.Uses
import PayFormula.Proofs.Tree.Names

/-!
# What is declared

Evaluation declares one variable for each binding of a tree, wherever the
binding stands, after the variables of its own value. The variable has the name
that the binding has in the tree.
-/
namespace PayFormula

/-- A variable without its value. -/
def VariableOf.entry (v : Variable) : Binding × String := (v.binding, v.name)

/-- What is listed of a binding. -/
def BindingOf.entry (b : Binding) : Binding × String := (b, b.name.name)

namespace Node

def binding? : Node → Option Binding
  | .binding b => some b
  | _ => none

theorem eq_of_binding? {node : Node} {b : Binding} (h : node.binding? = some b) :
    node = .binding b := by
  unfold binding? at h
  split at h
  · cases h
    rfl
  · cases h

/-- The bindings of a tree, each behind those of its value. -/
def bound (node : Node) : List Binding :=
  (node.children.attach.flatMap fun ⟨child, _⟩ => child.bound) ++ node.binding?.toList
termination_by node.size
decreasing_by exact size_lt_of_mem_children ‹_›

theorem bound_eq (node : Node) :
    node.bound = node.children.flatMap bound ++ node.binding?.toList := by
  rw [bound]
  simp [List.flatMap_subtype]

theorem bound_of_binding?_none {node : Node} (h : node.binding? = none) :
    node.bound = node.children.flatMap bound := by
  rw [bound_eq, h, Option.toList_none, List.append_nil]

theorem bound_binding (b : Binding) :
    (Node.binding b).bound = (Node.expr b.value).bound ++ [b] := by
  have hname : (Node.ident b.name).bound = [] := bound_of_binding?_none rfl
  rw [bound_eq, children, List.flatMap_cons, List.flatMap_singleton, hname]
  rfl

/-- Every binding has its name in the tree. -/
theorem name_mem_of_bound {node : Node} {b : Binding} (h : b ∈ node.bound) :
    b.name ∈ node.names := by
  induction node using Node.induction with
  | step node ih =>
    rw [bound_eq] at h
    rcases List.mem_append.mp h with h | h
    · obtain ⟨child, hchild, h⟩ := List.mem_flatMap.mp h
      exact names_subset hchild (ih child hchild h)
    · obtain rfl := eq_of_binding? (Option.mem_toList.mp h)
      have hname : Node.ident b.name ∈ (Node.binding b).children := by simp [children]
      refine names_subset hname ?_
      rw [names_of_ident? rfl]
      exact List.mem_singleton_self _

/-- What nodes that are visited in order declare, if each declares its bindings. -/
theorem declareAll_entries {nodes : List Node}
    (h : ∀ node ∈ nodes, ∀ declared, (node.declare declared).map VariableOf.entry =
      declared.map VariableOf.entry ++ node.bound.map BindingOf.entry)
    (declared : List Variable) :
    (declareAll nodes declared).map VariableOf.entry =
      declared.map VariableOf.entry ++ (nodes.flatMap bound).map BindingOf.entry := by
  induction nodes generalizing declared with
  | nil => exact (List.append_nil _).symm
  | cons node nodes ih =>
    rw [declareAll, ih fun n hn => h n (List.mem_cons_of_mem _ hn), h node List.mem_cons_self,
      List.append_assoc, List.flatMap_cons, List.map_append]

/-- A node declares its bindings, each by its own name. -/
theorem declare_entries (node : Node) (declared : List Variable) :
    (node.declare declared).map VariableOf.entry =
      declared.map VariableOf.entry ++ node.bound.map BindingOf.entry := by
  induction node using Node.induction generalizing declared with
  | step node ih =>
    cases hb : node.binding? with
    | some b =>
      obtain rfl := eq_of_binding? hb
      have hvalue := ih (.expr b.value) (by simp [children]) declared
      have hdeclare : (Node.binding b).declare declared = (Node.expr b.value).declare declared ++
          [{ name := b.name.name, binding := b, value := (Evaluate.expr b.value declared).1 }] := rfl
      rw [hdeclare, List.map_append, hvalue, bound_binding, List.append_assoc, List.map_append]
      rfl
    | none =>
      rcases node.visit with ⟨i, rfl⟩ | ⟨b, rfl⟩ | hplain
      · rw [declare_ident, bound_of_binding?_none hb]
        exact (List.append_nil _).symm
      · cases hb
      · rw [(hplain [] declared).2, declareAll_entries ih, bound_of_binding?_none hb]

end Node

namespace Program

/-- The variables of a program are those of its bindings, each by the name of its own one. -/
theorem declared_entries (p : Program) : (evaluate p).declared.map VariableOf.entry =
    (Node.program p).bound.map BindingOf.entry :=
  (Node.program p).declare_entries []

theorem declared_bindings (p : Program) :
    (evaluate p).declared.map (·.binding) = (Node.program p).bound := by
  have h := congrArg (List.map Prod.fst) p.declared_entries
  rw [List.map_map, List.map_map] at h
  exact h.trans (List.map_id _)

theorem name_of_declared {p : Program} {v : Variable} (h : v ∈ (evaluate p).declared) :
    v.name = v.binding.name.name := by
  have hentry := List.mem_map_of_mem (f := VariableOf.entry) h
  rw [p.declared_entries] at hentry
  obtain ⟨b, -, hb⟩ := List.mem_map.mp hentry
  obtain ⟨rfl, hname⟩ := Prod.mk.inj hb
  exact hname.symm

end Program

end PayFormula
