import Mathlib.Data.List.Perm.Basic
import PayFormula.Document.Outline
import PayFormula.Proofs.Scope.Declared

/-!
# Which variables are listed, and in what order

A walk over a whole tree enters every binding just once, and evaluation lists one
variable for each of them. But a walk enters a binding in front of those in its
value, and evaluation lists it behind them. So the names of the variables stand in
the order of the text just if no binding stands in the value of another one.
-/
namespace PayFormula

namespace Node

/-- The node that a visit enters. -/
def Visit.entered? : Visit → Option Node
  | .enter node => some node
  | .leave _ => none

theorem visits_eq (opens : Node → Bool) (node : Node) :
    node.visits opens = .enter node ::
      (if opens node then node.children.flatMap (·.visits opens) else []) ++ [.leave node] := by
  rw [visits]
  simp [List.flatMap_subtype]

/-- Where every node is opened, what is entered is the walk. -/
theorem filterMap_entered?_visits (node : Node) :
    (node.visits fun _ => true).filterMap Visit.entered? = node.walk := by
  induction node using Node.induction with
  | step node ih =>
    have hbelow : (node.children.flatMap (·.visits fun _ => true)).filterMap Visit.entered? =
        node.children.flatMap walk := by
      rw [List.filterMap_flatMap]
      exact List.flatMap_congr ih
    rw [visits_eq, walk_eq, ← hbelow]
    simp [Visit.entered?]

/-- The bindings of a tree are those that a walk enters. -/
theorem bound_perm (node : Node) : node.bound.Perm (node.walk.filterMap binding?) := by
  induction node using Node.induction with
  | step node ih =>
    have hbelow : (node.children.flatMap bound).Perm
        ((node.children.flatMap walk).filterMap binding?) := by
      rw [List.filterMap_flatMap]
      exact List.Perm.flatMap_left _ ih
    rw [bound_eq, walk_eq]
    cases hb : node.binding? with
    | none => simpa [hb] using hbelow
    | some b => simpa [hb] using (List.perm_append_singleton b _).trans (hbelow.cons b)

theorem mem_bound {node : Node} {b : Binding} : b ∈ node.bound ↔ .binding b ∈ node.walk := by
  rw [node.bound_perm.mem_iff, List.mem_filterMap]
  constructor
  · rintro ⟨below, hbelow, hb⟩
    rwa [← eq_of_binding? hb]
  · exact fun h => ⟨_, h, rfl⟩

/-- A binding is listed right behind those in its value. -/
theorem sublist_bound {node : Node} {b : Binding} (h : .binding b ∈ node.walk) :
    ((Node.expr b.value).bound ++ [b]).Sublist node.bound := by
  induction node using Node.induction with
  | step node ih =>
    rw [walk_eq] at h
    rcases List.mem_cons.mp h with rfl | h
    · rw [bound_binding]
    · obtain ⟨child, hchild, h⟩ := List.mem_flatMap.mp h
      obtain ⟨before, after, hchildren⟩ := List.append_of_mem hchild
      rw [bound_eq node, hchildren, List.flatMap_append, List.flatMap_cons]
      refine (ih child hchild h).trans ((List.sublist_append_left _ (after.flatMap bound)).trans ?_)
      exact (List.sublist_append_right _ _).trans (List.sublist_append_left _ _)

/-- The second binding is listed behind the first one, as its name stands behind the other name, or
because the first one stands in its value. -/
def ListedAfter (b c : Binding) : Prop :=
  b.name.span.first < c.name.span.first ∨
    c.name.span.first < b.name.span.first ∧ .binding b ∈ (Node.expr c.value).walk

/-- In a binding the name stands in front of the names of the bindings in its value. -/
theorem Nested.name_lt {b c : Binding} (h : (Node.binding b).Nested)
    (hc : .binding c ∈ (Node.expr b.value).walk) : b.name.span.first < c.name.span.first := by
  obtain ⟨-, -, hpairwise, hnested⟩ := h
  have hforward := (hnested (.ident b.name) (by simp [children])).name (i := b.name)
    (by rw [names_of_ident? rfl]; exact List.mem_singleton_self _)
  have hvalue := (hnested (.expr b.value) (by simp [children])).name
    (name_mem_of_bound (mem_bound.mpr hc))
  have hlt : b.name.span.last < b.value.span.first :=
    List.rel_of_pairwise_cons hpairwise (List.mem_singleton_self _)
  exact (hforward.1.trans_lt hlt).trans_le (Span.encloses_iff.mp hvalue.2).1

theorem Nested.bound_listed {node : Node} (h : node.Nested) : node.bound.Pairwise ListedAfter := by
  induction h with
  | @intro node hforward hencloses hpairwise hnested ih =>
    have hbelow : (node.children.flatMap bound).Pairwise ListedAfter := by
      refine List.pairwise_flatMap.mpr ⟨ih, hpairwise.imp_of_mem ?_⟩
      intro a a' ha ha' hlt b hb c hc
      have hfront := (hnested a ha).name (name_mem_of_bound hb)
      have hback := (hnested a' ha').name (name_mem_of_bound hc)
      have hlast := (Span.encloses_iff.mp hfront.2).2
      have hfirst := (Span.encloses_iff.mp hback.2).1
      exact .inl (hfront.1.trans_lt ((hlast.trans_lt hlt).trans_le hfirst))
    rw [bound_eq]
    refine List.pairwise_append.mpr ⟨hbelow, ?_, fun b hb c hc => ?_⟩
    · cases node.binding? <;> simp
    · obtain rfl := eq_of_binding? (Option.mem_toList.mp hc)
      have hname : (Node.ident c.name).bound = [] := bound_of_binding?_none rfl
      rw [children, List.flatMap_cons, List.flatMap_singleton, hname, List.nil_append] at hb
      have hvalue := mem_bound.mp hb
      exact .inr ⟨Nested.name_lt (.intro hforward hencloses hpairwise hnested) hvalue, hvalue⟩

/-- Bindings are listed in the order of their names just if none stands in the value of another. -/
theorem Nested.bound_ordered_iff {node : Node} (h : node.Nested) :
    node.bound.Pairwise (fun b c => b.name.span.first < c.name.span.first) ↔
      ∀ b, .binding b ∈ node.walk → ∀ c, .binding c ∉ (Node.expr b.value).walk := by
  constructor
  · intro hordered b hb c hc
    have hlisted := hordered.sublist (sublist_bound hb)
    have hlt := (List.pairwise_append.mp hlisted).2.2 c (mem_bound.mpr hc) b
      (List.mem_singleton_self b)
    exact lt_asymm hlt ((h.of_mem_walk hb).1.name_lt hc)
  · intro hnone
    refine h.bound_listed.imp_of_mem fun hb hc hlisted => ?_
    exact hlisted.resolve_right fun hvalue => hnone _ (mem_bound.mp hc) _ hvalue.2

end Node

/-- Evaluation lists each binding that a visitor of the whole program enters just once, by its own
name, and no other one. -/
theorem evaluate_declared_perm (p : Program) :
    ((evaluate p).declared.map fun v => (v.binding, v.name)).Perm
      ((((Node.program p).visits fun _ => true).filterMap Node.Visit.entered?).filterMap
        Node.binding? |>.map fun b => (b, b.name.name)) := by
  rw [Node.filterMap_entered?_visits]
  have hdeclared : (evaluate p).declared.map (fun v => (v.binding, v.name)) =
      (Node.program p).bound.map fun b => (b, b.name.name) := p.declared_entries
  rw [hdeclared]
  exact (Node.program p).bound_perm.map _

/-- The variables that a text declares are listed in the order of their names, but those in a value
of another one in front of that one. So all are listed in this order just if there are no such
ones; documents and their symbols follow the list. -/
theorem declared_ordered_iff {source : String} (hsize : byteLength source.toList < 0x100000000) :
    let tree := Node.program (parse source).program
    let starts := (evaluate (parse source).program).declared.map (·.nameSpan.first)
    (Document.ofSource source).declared.map (·.nameSpan.first) = starts ∧
      (Document.ofSource source).symbols.map (·.selection.first) = starts ∧
      (evaluate (parse source).program).declared.Pairwise
        (fun v w => Node.ListedAfter v.binding w.binding) ∧
      (starts.Pairwise (· < ·) ↔
        ∀ b, .binding b ∈ tree.walk → ∀ c, .binding c ∉ (Node.expr b.value).walk) := by
  intro tree starts
  have hnested : tree.Nested := parse_program_nested hsize
  have hbound : (evaluate (parse source).program).declared.map (·.binding) = tree.bound :=
    (parse source).program.declared_bindings
  have hstarts : starts = tree.bound.map (·.name.span.first) := by
    rw [← hbound, List.map_map]
    rfl
  refine ⟨rfl, List.map_map, ?_, ?_⟩
  · have hlisted := hnested.bound_listed
    rwa [← hbound, List.pairwise_map] at hlisted
  · rw [hstarts, List.pairwise_map]
    exact hnested.bound_ordered_iff

theorem declared_ordered_iff_blocks :
    byteLength "var a = 1; sum(var b = 2; b)".toList < 0x100000000 ∧
      ((Document.ofSource "var a = 1; sum(var b = 2; b)").symbols.map
        (·.selection.first)).Pairwise (· < ·) := by
  have hsize : byteLength "var a = 1; sum(var b = 2; b)".toList < 0x100000000 := by
    decide +kernel
  have hvalues : ∀ b ∈ (Node.program (parse "var a = 1; sum(var b = 2; b)").program).bound,
      (Node.expr b.value).bound = [] := by decide +kernel
  obtain ⟨-, hsymbols, -, hordered⟩ := declared_ordered_iff hsize
  refine ⟨hsize, ?_⟩
  rw [hsymbols, hordered]
  intro b hb c hc
  have hbound := Node.mem_bound.mpr hc
  rw [hvalues b (Node.mem_bound.mpr hb)] at hbound
  cases hbound

/-- A variable in the value of another one is listed in front of it. -/
theorem declared_unordered_in_value :
    ¬ ∀ source, ((evaluate (parse source).program).declared.map (·.nameSpan.first)).Pairwise
      (· < ·) := by
  intro h
  have hvalue := h "var x = sum(var y = 1; y);"
  revert hvalue
  decide +kernel

end PayFormula
