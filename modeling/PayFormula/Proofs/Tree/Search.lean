import PayFormula.Proofs.Grammar.Nested
import PayFormula.Proofs.Tree.Walk
import PayFormula.Syntax.Search

/-!
# Searching by position is exact

In a well-nested tree the first child that contains a position is the only one,
and nothing below the others contains it. So a search that goes down only one
child at a time finds every node around the position.
-/
namespace PayFormula

namespace Node

/-- Everything below a well-nested node is well nested and lies within its span. -/
theorem Nested.of_mem_walk {node below : Node} (h : node.Nested) (hb : below ∈ node.walk) :
    below.Nested ∧ below.span.first ≤ below.span.last ∧ node.span.encloses below.span := by
  induction h with
  | @intro node hforward hencloses hpairwise hnested ih =>
    rw [walk_eq] at hb
    rcases List.mem_cons.mp hb with rfl | hb
    · exact ⟨.intro hforward hencloses hpairwise hnested, hforward,
        Span.encloses_iff.mpr ⟨le_rfl, le_rfl⟩⟩
    · obtain ⟨child, hchild, hb⟩ := List.mem_flatMap.mp hb
      obtain ⟨hn, hf, he⟩ := ih child hchild hb
      exact ⟨hn, hf, Span.encloses_trans (hencloses child hchild) he⟩

/-- Nothing around a position lies below a node that does not contain it. -/
theorem Nested.filter_walk {node : Node} {place : Position} (h : node.Nested)
    (hp : ¬ node.span.contains place) : node.walk.filter (·.span.contains place) = [] := by
  rw [List.filter_eq_nil_iff]
  intro below hb hcontains
  exact hp (Span.contains_of_encloses (h.of_mem_walk hb).2.2 hcontains)

theorem filter_flatMap_walk {nodes : List Node} {place : Position}
    (hn : ∀ node ∈ nodes, node.Nested) (hp : ∀ node ∈ nodes, ¬ node.span.contains place) :
    (nodes.flatMap walk).filter (·.span.contains place) = [] := by
  rw [List.filter_flatMap, List.flatMap_eq_nil_iff]
  exact fun node hnode => (hn node hnode).filter_walk (hp node hnode)

/-- Of everything below the children of a node, what is around a position lies below one child. -/
theorem Nested.filter_children {node child : Node} {place : Position} (h : node.Nested)
    (hchild : child ∈ node.children) (hp : child.span.contains place) :
    (node.children.flatMap walk).filter (·.span.contains place) =
      child.walk.filter (·.span.contains place) := by
  cases h with
  | intro _ _ hpairwise hnested =>
    obtain ⟨before, after, heq⟩ := List.append_of_mem hchild
    rw [heq] at hpairwise
    have hother {other : Node} (ho : other ∈ before ++ after) : ¬ other.span.contains place := by
      intro hplace
      rw [Span.contains_iff] at hp hplace
      rcases List.mem_append.mp ho with ho | ho
      · have hlt := (List.pairwise_append.mp hpairwise).2.2 other ho child List.mem_cons_self
        exact absurd hlt (not_lt_of_ge (hp.1.trans hplace.2))
      · have hlt := List.rel_of_pairwise_cons (List.pairwise_append.mp hpairwise).2.1 ho
        exact absurd hlt (not_lt_of_ge (hplace.1.trans hp.2))
    have hfirst : (before.flatMap walk).filter (·.span.contains place) = [] :=
      filter_flatMap_walk (fun other ho => hnested other (heq ▸ by simp [ho]))
        fun other ho => hother (List.mem_append_left _ ho)
    have hlast : (after.flatMap walk).filter (·.span.contains place) = [] :=
      filter_flatMap_walk (fun other ho => hnested other (heq ▸ by simp [ho]))
        fun other ho => hother (List.mem_append_right _ ho)
    rw [heq, List.flatMap_append, List.flatMap_cons, List.filter_append, List.filter_append,
      hfirst, hlast, List.nil_append, List.append_nil]

/-- The way down to a position passes through every node around it. -/
theorem Nested.pathTo_eq {node : Node} (h : node.Nested) (place : Position) :
    node.pathTo place = (node.children.flatMap walk).filter (·.span.contains place) := by
  induction h with
  | @intro node hforward hencloses hpairwise hnested ih =>
    rw [pathTo]
    split
    · rename_i child hfind
      have hchild : child ∈ node.children := List.mem_of_find?_eq_some hfind
      have hcontains : child.span.contains place :=
        List.find?_some (p := fun child : Node => child.span.contains place) hfind
      have hnode : node.Nested := .intro hforward hencloses hpairwise hnested
      rw [hnode.filter_children hchild hcontains, walk_eq child, List.filter_cons, if_pos hcontains,
        ih child hchild]
    · rename_i hfind
      rw [List.find?_eq_none] at hfind
      exact (filter_flatMap_walk hnested hfind).symm

/-- The nodes around a position end in those below any one of them. -/
theorem Nested.filter_walk_suffix {node below : Node} {place : Position} (h : node.Nested)
    (hb : below ∈ node.walk) (hp : below.span.contains place) :
    below.walk.filter (·.span.contains place) <:+ node.walk.filter (·.span.contains place) := by
  induction h with
  | @intro node hforward hencloses hpairwise hnested ih =>
    have hnode : node.Nested := .intro hforward hencloses hpairwise hnested
    rw [walk_eq] at hb
    rcases List.mem_cons.mp hb with rfl | hb
    · exact List.suffix_rfl
    · obtain ⟨child, hchild, hb⟩ := List.mem_flatMap.mp hb
      have hcontains : child.span.contains place :=
        Span.contains_of_encloses ((hnested child hchild).of_mem_walk hb).2.2 hp
      have hbelow := ih child hchild hb
      rw [← hnode.filter_children hchild hcontains] at hbelow
      rw [walk_eq node, List.filter_cons]
      split
      · exact hbelow.trans (List.suffix_cons _ _)
      · exact hbelow

end Node

/-- In a well-nested program a search finds the nodes around a position. -/
theorem Program.enclosing_of_nested {p : Program} {place : Position}
    (h : (Node.program p).Nested) (hp : p.span.contains place) :
    p.enclosing place false =
      .ok ((Node.program p).walk.tail.filter (·.span.contains place)) := by
  rw [Program.enclosing, hp, h.pathTo_eq, Node.walk_eq, List.tail_cons]
  rfl

open Grammar

/-- The tree of every text is well nested. -/
theorem parse_program_nested {source : String} (hsize : byteLength source.toList < 0x100000000) :
    (Node.program (parse source).program).Nested := by
  have ho := Token.ofChars_ordered hsize
  have hrow := lines_row (parse_lines source) ho.left
  have hend : Token.endOf (LineIndex.ofString source) ∈
      [Token.endOf (LineIndex.ofString source)] := List.mem_singleton_self _
  refine .intro (Position.origin_le _) ?_ hrow.pairwise ?_
  · intro child hchild
    obtain ⟨b, hb, hlast⟩ := (hrow.within child hchild).inside.last
    exact Span.encloses_iff.mpr ⟨Position.origin_le _, hlast.trans (ho.lt hb hend).le⟩
  · intro child hchild
    exact (hrow.within child hchild).nested

/-- In the tree of every text, every node encloses its children, which stand one behind the other;
and a search finds just the nodes of a full walk that contain a position, innermost last. -/
theorem parse_nested_search_exact {source : String}
    (hsize : byteLength source.toList < 0x100000000) :
    (∀ node ∈ (Node.program (parse source).program).walk,
      node.span.first ≤ node.span.last ∧
      (∀ child ∈ node.children, node.span.encloses child.span) ∧
      node.children.Pairwise (·.span.last < ·.span.first)) ∧
    ∀ place, (parse source).program.span.contains place →
      let around := (Node.program (parse source).program).walk.tail.filter (·.span.contains place)
      (parse source).program.enclosing place false = .ok around ∧
        (parse source).program.nodeAt place false =
          .ok (around.getLastD (.program (parse source).program)) := by
  have hnested := parse_program_nested hsize
  constructor
  · intro node hnode
    obtain ⟨⟨hforward, hencloses, hpairwise, -⟩, -, -⟩ := hnested.of_mem_walk hnode
    exact ⟨hforward, hencloses, hpairwise⟩
  · intro place hplace around
    have henclosing : (parse source).program.enclosing place false = .ok around :=
      Program.enclosing_of_nested hnested hplace
    refine ⟨henclosing, ?_⟩
    rw [Program.nodeAt, henclosing]
    rfl

theorem parse_nested_search_exact_recovered :
    byteLength "sum(1, , (2)) + 3".toList < 0x100000000 ∧
      (parse "sum(1, , (2)) + 3").program.span.contains ⟨0, 7⟩ ∧
      ∃ around node, (parse "sum(1, , (2)) + 3").program.enclosing ⟨0, 7⟩ false = .ok around ∧
        (parse "sum(1, , (2)) + 3").program.nodeAt ⟨0, 7⟩ false = .ok node ∧
        around.map (fun node => (node.kindName, node.span)) =
          [("Infix", ⟨⟨0, 0⟩, ⟨0, 16⟩⟩), ("BuiltinCall", ⟨⟨0, 0⟩, ⟨0, 12⟩⟩),
            ("Error", ⟨⟨0, 7⟩, ⟨0, 7⟩⟩)] ∧
        (node.kindName, node.span) = ("Error", ⟨⟨0, 7⟩, ⟨0, 7⟩⟩) := by
  obtain ⟨hsize, hplace, hshown⟩ : byteLength "sum(1, , (2)) + 3".toList < 0x100000000 ∧
      (parse "sum(1, , (2)) + 3").program.span.contains ⟨0, 7⟩ ∧
      ((Node.program (parse "sum(1, , (2)) + 3").program).walk.tail.filter
          (·.span.contains ⟨0, 7⟩)).map (fun node => (node.kindName, node.span)) =
        [("Infix", ⟨⟨0, 0⟩, ⟨0, 16⟩⟩), ("BuiltinCall", ⟨⟨0, 0⟩, ⟨0, 12⟩⟩),
          ("Error", ⟨⟨0, 7⟩, ⟨0, 7⟩⟩)] := by decide +kernel
  obtain ⟨haround, hnode⟩ := (parse_nested_search_exact hsize).2 ⟨0, 7⟩ hplace
  refine ⟨hsize, hplace, _, _, haround, hnode, hshown, ?_⟩
  -- the node found is the last one around the place
  refine (List.getLastD_map (f := fun node : Node => (node.kindName, node.span))).symm.trans ?_
  rw [hshown]
  rfl

end PayFormula
