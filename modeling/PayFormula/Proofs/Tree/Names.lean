import PayFormula.Proofs.Tree.Search

/-!
# The names of a tree

The identifiers of a tree in the order of the text. Nothing stands below them;
so in a well-nested tree they stand one behind the other, and the innermost node
around a position is an identifier just if one of them contains the position.
-/
namespace PayFormula

namespace Node

/-- The identifiers that are nodes of a tree, in the order of the text. -/
def names (node : Node) : List Ident := node.walk.filterMap ident?

variable {node : Node} {i : Ident} {place : Position}

theorem span_of_ident? (h : node.ident? = some i) : node.span = i.span := by
  unfold ident? at h
  split at h
  · cases h
    rfl
  · cases h
    rfl
  · cases h

theorem children_of_ident? (h : node.ident? = some i) : node.children = [] := by
  unfold ident? at h
  split at h
  · rfl
  · rfl
  · cases h

theorem names_eq (node : Node) :
    node.names = node.ident?.toList ++ node.children.flatMap names := by
  have hbelow : node.children.flatMap names =
      (node.children.flatMap walk).filterMap ident? := List.filterMap_flatMap.symm
  rw [names, walk_eq, hbelow]
  cases h : node.ident? <;> simp [h]

theorem names_of_ident? (h : node.ident? = some i) : node.names = [i] := by
  rw [names_eq, h, children_of_ident? h]
  rfl

theorem names_of_ident?_none (h : node.ident? = none) :
    node.names = node.children.flatMap names := by
  rw [names_eq, h]
  rfl

theorem mem_names : i ∈ node.names ↔ ∃ below ∈ node.walk, below.ident? = some i :=
  List.mem_filterMap

/-- What is named below a node is named in it. -/
theorem names_subset {below : Node} (h : below ∈ node.children) : below.names ⊆ node.names := by
  intro i hi
  rw [names_eq]
  exact List.mem_append_right _ (List.mem_flatMap.mpr ⟨below, h, hi⟩)

/-- Names lie within the tree. -/
theorem Nested.name (h : node.Nested) (hi : i ∈ node.names) :
    i.span.first ≤ i.span.last ∧ node.span.encloses i.span := by
  obtain ⟨below, hbelow, hident⟩ := mem_names.mp hi
  obtain ⟨-, hforward, hencloses⟩ := h.of_mem_walk hbelow
  rw [span_of_ident? hident] at hforward hencloses
  exact ⟨hforward, hencloses⟩

/-- Names stand one behind the other. -/
theorem Nested.names_pairwise (h : node.Nested) :
    node.names.Pairwise (·.span.last < ·.span.first) := by
  induction h with
  | @intro node _ _ hpairwise hnested ih =>
    cases hident : node.ident? with
    | some i =>
      rw [names_of_ident? hident]
      exact List.pairwise_singleton _ _
    | none =>
      rw [names_of_ident?_none hident, List.pairwise_flatMap]
      refine ⟨ih, hpairwise.imp_of_mem ?_⟩
      intro a b ha hb hlt i hi j hj
      have hfront := (Span.encloses_iff.mp ((hnested a ha).name hi).2).2
      have hback := (Span.encloses_iff.mp ((hnested b hb).name hj).2).1
      exact (hfront.trans_lt hlt).trans_le hback

/-- The innermost node around a place in a name is this name. -/
theorem Nested.innermost (h : node.Nested) (hi : i ∈ node.names) (hp : i.span.contains place) :
    ((node.pathTo place).getLastD node).ident? = some i := by
  induction h with
  | @intro node hforward hencloses hpairwise hnested ih =>
    cases hident : node.ident? with
    | some j =>
      rw [names_of_ident? hident] at hi
      have hpath : node.pathTo place = [] := by
        rw [Nested.pathTo_eq (.intro hforward hencloses hpairwise hnested),
          children_of_ident? hident]
        rfl
      rw [hpath, List.getLastD_nil, hident, List.mem_singleton.mp hi]
    | none =>
      rw [names_of_ident?_none hident] at hi
      obtain ⟨child, hchild, hi⟩ := List.mem_flatMap.mp hi
      have hcontains := Span.contains_of_encloses ((hnested child hchild).name hi).2 hp
      have hfind := Span.find?_eq_some hpairwise hchild hcontains
      rw [pathTo]
      split
      · rename_i other hother
        obtain rfl := Option.some.inj (hother.symm.trans hfind)
        rw [List.getLastD_cons]
        exact ih other hchild hi
      · rename_i hnone
        rw [hfind] at hnone
        cases hnone

/-- An innermost node that is an identifier is a name with the place in it. -/
theorem Nested.of_innermost (h : node.Nested) (hp : node.span.contains place)
    (hi : ((node.pathTo place).getLastD node).ident? = some i) :
    i ∈ node.names ∧ i.span.contains place := by
  have hmem : (node.pathTo place).getLastD node ∈ node.walk.filter (·.span.contains place) := by
    rw [h.pathTo_eq, walk_eq, List.filter_cons, if_pos hp]
    exact List.getLastD_mem_cons
  obtain ⟨hwalk, hcontains⟩ := List.mem_filter.mp hmem
  rw [span_of_ident? hi] at hcontains
  exact ⟨mem_names.mpr ⟨_, hwalk, hi⟩, hcontains⟩

/-- A search ends at the name around a place, if there is one. -/
theorem Nested.ident?_innermost (h : node.Nested) (hp : node.span.contains place) :
    ((node.pathTo place).getLastD node).ident? = node.names.find? (·.span.contains place) := by
  cases hfind : node.names.find? (·.span.contains place) with
  | some i =>
    have hcontains : i.span.contains place := by simpa using List.find?_some hfind
    exact h.innermost (List.mem_of_find?_eq_some hfind) hcontains
  | none =>
    rw [Option.eq_none_iff_forall_ne_some]
    intro i hi
    obtain ⟨hname, hcontains⟩ := h.of_innermost hp hi
    exact List.find?_eq_none.mp hfind i hname hcontains

end Node

end PayFormula
