import Mathlib.Data.List.Basic
import PayFormula.Proofs.Grammar
import PayFormula.Proofs.Token.Order
import PayFormula.Syntax.Node

/-!
# Well-nested trees

A node that was read from some tokens covers exactly these, and its children
lie within them one behind the other. So a span never leaves that of the parent,
and the spans of two children never meet.
-/
namespace PayFormula

/-- In every node below, the children are enclosed and stand one behind the other. -/
inductive Node.Nested : Node → Prop
  | intro {node : Node} : node.span.first ≤ node.span.last →
      (∀ child ∈ node.children, node.span.encloses child.span) →
      node.children.Pairwise (·.span.last < ·.span.first) →
      (∀ child ∈ node.children, child.Nested) → node.Nested

/-- A span that starts and ends within some tokens. -/
structure Inside (toks : List Token) (s : Span) : Prop where
  forward : s.first ≤ s.last
  first : ∃ a ∈ toks, a.first ≤ s.first
  last : ∃ b ∈ toks, s.last ≤ b.last

/-- A span within some tokens that contains all of them. -/
structure Covers (toks : List Token) (s : Span) : Prop extends Inside toks s where
  all : ∀ t ∈ toks, s.first ≤ t.first ∧ t.last ≤ s.last

variable {toks front middle back : List Token} {s s' : Span}

theorem Inside.mono (h : Inside front s) (hs : front ⊆ toks) : Inside toks s := by
  obtain ⟨a, ha, hfirst⟩ := h.first
  obtain ⟨b, hb, hlast⟩ := h.last
  exact ⟨h.forward, ⟨a, hs ha, hfirst⟩, ⟨b, hs hb, hlast⟩⟩

/-- Spans within tokens one behind the other stand one behind the other. -/
theorem Inside.lt (ho : Ordered (front ++ back)) (h : Inside front s) (h' : Inside back s') :
    s.last < s'.first := by
  obtain ⟨b, hb, hlast⟩ := h.last
  obtain ⟨a, ha, hfirst⟩ := h'.first
  exact (hlast.trans_lt (ho.lt hb ha)).trans_le hfirst

namespace Covers

theorem encloses (h : Covers toks s) (h' : Inside toks s') : s.encloses s' := by
  obtain ⟨a, ha, hfirst⟩ := h'.first
  obtain ⟨b, hb, hlast⟩ := h'.last
  rw [Span.encloses_iff]
  exact ⟨(h.all a ha).1.trans hfirst, hlast.trans (h.all b hb).2⟩

theorem single {t : Token} (ho : Ordered [t]) : Covers [t] t.span := by
  have ht : t ∈ [t] := List.mem_singleton_self t
  refine ⟨⟨ho.forward t ht, ⟨t, ht, le_rfl⟩, ⟨t, ht, le_rfl⟩⟩, ?_⟩
  intro u hu
  rw [List.mem_singleton.mp hu]
  exact ⟨le_rfl, le_rfl⟩

/-- Two spans joined over whatever stands between them. -/
theorem join (middle : List Token) (ho : Ordered (front ++ middle ++ back)) (h : Covers front s)
    (h' : Covers back s') : Covers (front ++ middle ++ back) (s.join s') := by
  obtain ⟨a, ha, hfirst⟩ := h.first
  obtain ⟨b, hb, hlast⟩ := h'.last
  have hlt : s.last < s'.first := by
    refine h.toInside.lt (ho.sublist ?_) h'.toInside
    rw [List.append_assoc]
    exact (List.Sublist.refl front).append (List.sublist_append_right middle back)
  have hmin : (s.join s').first = s.first := min_eq_left (h.forward.trans hlt.le)
  have hmax : (s.join s').last = s'.last := max_eq_right (hlt.le.trans h'.forward)
  refine ⟨⟨?_, ⟨a, by simp [ha], hmin ▸ hfirst⟩, ⟨b, by simp [hb], hmax ▸ hlast⟩⟩, ?_⟩
  · rw [hmin, hmax]
    exact (h.forward.trans hlt.le).trans h'.forward
  · intro t ht
    rw [hmin, hmax]
    rcases List.mem_append.mp ht with hfm | hback
    · rcases List.mem_append.mp hfm with hfront | hmiddle
      · have hall := h.all t hfront
        exact ⟨hall.1, (hall.2.trans hlt.le).trans h'.forward⟩
      · -- What stands between lies behind the start of the first and before the end of the last.
        constructor
        · obtain ⟨c, hc, hclast⟩ := h.last
          exact (h.forward.trans hclast).trans (ho.left.lt hc hmiddle).le
        · obtain ⟨c, hc, hcfirst⟩ := h'.first
          exact (ho.lt hfm hc).le.trans (hcfirst.trans h'.forward)
    · have hall := h'.all t hback
      exact ⟨(h.forward.trans hlt.le).trans hall.1, hall.2⟩

theorem join_head (middle : List Token) {t : Token} (ho : Ordered (t :: (middle ++ back)))
    (h : Covers back s) : Covers (t :: (middle ++ back)) (t.span.join s) :=
  join middle (show Ordered ([t] ++ middle ++ back) from ho) (.single ho.head) h

/-- The span from the first of some tokens to the last of them. -/
theorem ends (middle : List Token) {t u : Token} (ho : Ordered (t :: middle ++ [u])) :
    Covers (t :: middle ++ [u]) ⟨t.first, u.last⟩ := by
  have ht : t ∈ t :: middle ++ [u] := by simp
  have hu : u ∈ t :: middle ++ [u] := by simp
  have hall : ∀ v ∈ t :: middle ++ [u], t.first ≤ v.first ∧ v.last ≤ u.last := by
    intro v hv
    have hforward := ho.forward v hv
    constructor
    · exact Ordered.head_le ho v hv
    · rcases List.mem_append.mp hv with hv | hv
      · exact (ho.lt hv (List.mem_singleton_self u)).le.trans (ho.forward u hu)
      · rw [List.mem_singleton.mp hv]
  exact ⟨⟨(hall u hu).1.trans (ho.forward u hu), ⟨t, ht, le_rfl⟩, ⟨u, hu, le_rfl⟩⟩, hall⟩

end Covers

/-- A node within some tokens. -/
structure Node.Within (toks : List Token) (node : Node) : Prop where
  inside : Inside toks node.span
  nested : node.Nested

/-- A node that covers the tokens from which it was read. -/
structure Node.Fills (toks : List Token) (node : Node) : Prop where
  covers : Covers toks node.span
  nested : node.Nested

/-- Nodes that stand one behind the other within some tokens. -/
structure Row (toks : List Token) (nodes : List Node) : Prop where
  within : ∀ node ∈ nodes, node.Within toks
  pairwise : nodes.Pairwise (·.span.last < ·.span.first)

variable {node : Node} {nodes : List Node}

namespace Node

theorem Within.mono (h : node.Within front) (hs : front ⊆ toks) : node.Within toks :=
  ⟨h.inside.mono hs, h.nested⟩

theorem Fills.within (h : node.Fills toks) : node.Within toks := ⟨h.covers.toInside, h.nested⟩

theorem Fills.of_row (hc : Covers toks node.span) (hr : Row toks node.children) :
    node.Fills toks := by
  refine ⟨hc, .intro hc.forward ?_ hr.pairwise ?_⟩
  · intro child hchild
    exact hc.encloses (hr.within child hchild).inside
  · intro child hchild
    exact (hr.within child hchild).nested

end Node

namespace Row

theorem nil : Row toks [] := ⟨fun _ h => (List.not_mem_nil h).elim, .nil⟩

theorem mono (h : Row front nodes) (hs : front ⊆ toks) : Row toks nodes :=
  ⟨fun node hn => (h.within node hn).mono hs, h.pairwise⟩

theorem cons (ho : Ordered (front ++ back)) (h : node.Within front) (hr : Row back nodes) :
    Row (front ++ back) (node :: nodes) := by
  constructor
  · intro other hother
    rcases List.mem_cons.mp hother with rfl | hother
    · exact h.mono (List.subset_append_left _ _)
    · exact (hr.within other hother).mono (List.subset_append_right _ _)
  · refine List.pairwise_cons.mpr ⟨?_, hr.pairwise⟩
    intro other hother
    exact h.inside.lt ho (hr.within other hother).inside

theorem single (h : node.Within toks) : Row toks [node] :=
  ⟨by simpa using h, List.pairwise_singleton _ _⟩

theorem pair {node' : Node} (ho : Ordered (front ++ back)) (h : node.Within front)
    (h' : node'.Within back) : Row (front ++ back) [node, node'] := cons ho h (single h')

end Row

end PayFormula
