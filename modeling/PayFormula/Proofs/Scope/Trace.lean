import PayFormula.Proofs.Scope.Uses
import PayFormula.Proofs.Tree.Nesting

/-!
# Evaluation follows the text

In a well-nested tree evaluation goes through the places of a text in order. So
what is declared when an identifier is met stands in front of it, and what is
declared later stands behind it, or is a binding in whose value it stands.
-/
namespace PayFormula

/-- What evaluation did at some places of a text: the variables it added, and the uses it met, each
with what had been declared before and what was declared after. -/
structure Traced (places : Position → Prop) (pending : List Binding)
    (declared declared' : List Variable) (uses : List Use) : Prop where
  declares : ∃ news, declared' = declared ++ news ∧ ∀ v ∈ news, places v.nameSpan.first ∧
    places v.binding.span.last ∧ v.nameSpan.first ≤ v.binding.span.last
  meets : ∀ u ∈ uses, places u.ident.span.first ∧ ∃ before own later,
    u.declared = declared ++ before ∧ declared' = u.declared ++ later ∧ u.pending = pending ++ own ∧
    (∀ v ∈ before, v.nameSpan.first ≤ v.binding.span.last ∧
      v.binding.span.last < u.ident.span.first) ∧
    (∀ v ∈ later, v.binding ∈ own ∨ u.ident.span.first < v.nameSpan.first) ∧
    ∀ b ∈ own, b ∈ later.map (·.binding) ∧ b.name.span.first ≤ u.ident.span.first ∧
      u.ident.span.first ≤ b.span.last

namespace Traced

variable {places places' : Position → Prop} {pending : List Binding}
  {declared declared' declared'' : List Variable} {uses uses' : List Use}

theorem nil (declared : List Variable) : Traced places pending declared declared [] := by
  refine ⟨⟨[], (List.append_nil _).symm, ?_⟩, ?_⟩
  · intro v hv
    cases hv
  · intro u hu
    cases hu

theorem single {i : Ident} (h : places i.span.first) :
    Traced places pending declared declared [⟨i, declared, pending⟩] := by
  obtain ⟨hdeclares, -⟩ : Traced places pending declared declared [] := nil declared
  refine ⟨hdeclares, ?_⟩
  intro u hu
  rw [List.mem_singleton.mp hu]
  exact ⟨h, [], [], [], by simp⟩

theorem mono (h : Traced places pending declared declared' uses)
    (hplaces : ∀ p, places p → places' p) : Traced places' pending declared declared' uses := by
  obtain ⟨news, heq, hnews⟩ := h.declares
  refine ⟨⟨news, heq, ?_⟩, ?_⟩
  · intro v hv
    obtain ⟨hname, hend, hle⟩ := hnews v hv
    exact ⟨hplaces _ hname, hplaces _ hend, hle⟩
  · intro u hu
    obtain ⟨hplace, hrest⟩ := h.meets u hu
    exact ⟨hplaces _ hplace, hrest⟩

/-- One piece of evaluation after another, further on in the text. -/
theorem append (h : Traced places pending declared declared' uses)
    (h' : Traced places' pending declared' declared'' uses')
    (hlt : ∀ p q, places p → places' q → p < q) :
    Traced (fun p => places p ∨ places' p) pending declared declared'' (uses ++ uses') := by
  obtain ⟨news, rfl, hnews⟩ := h.declares
  obtain ⟨news', rfl, hnews'⟩ := h'.declares
  constructor
  · refine ⟨news ++ news', List.append_assoc _ _ _, ?_⟩
    intro v hv
    rcases List.mem_append.mp hv with hv | hv
    · obtain ⟨hname, hend, hle⟩ := hnews v hv
      exact ⟨.inl hname, .inl hend, hle⟩
    · obtain ⟨hname, hend, hle⟩ := hnews' v hv
      exact ⟨.inr hname, .inr hend, hle⟩
  · intro u hu
    rcases List.mem_append.mp hu with hu | hu
    · obtain ⟨hplace, before, own, later, hbefore, hlater, hown, hb, hl, ho⟩ := h.meets u hu
      refine ⟨.inl hplace, before, own, later ++ news', hbefore, ?_, hown, hb, ?_, ?_⟩
      · rw [hlater, List.append_assoc]
      · intro v hv
        rcases List.mem_append.mp hv with hv | hv
        · exact hl v hv
        · exact .inr (hlt _ _ hplace (hnews' v hv).1)
      · intro b hmem
        obtain ⟨hdeclared, hspan⟩ := ho b hmem
        refine ⟨?_, hspan⟩
        rw [List.map_append]
        exact List.mem_append_left _ hdeclared
    · obtain ⟨hplace, before, own, later, hbefore, hlater, hown, hb, hrest⟩ := h'.meets u hu
      refine ⟨.inr hplace, news ++ before, own, later, ?_, hlater, hown, ?_, hrest⟩
      · rw [hbefore, List.append_assoc]
      · intro v hv
        rcases List.mem_append.mp hv with hv | hv
        · exact ⟨(hnews v hv).2.2, hlt _ _ (hnews v hv).2.1 hplace⟩
        · exact hb v hv

/-- A binding adds its variable after its value, so all uses in the value precede that. -/
theorem bind {name : String} {b : Binding} {value : Object}
    (h : Traced (b.value.span.contains ·) (pending ++ [b]) declared declared' uses)
    (hspan : ∀ p, b.value.span.contains p → b.name.span.first ≤ p ∧ b.span.contains p)
    (hname : b.span.contains b.name.span.first) (hend : b.span.contains b.span.last) :
    Traced (b.span.contains ·) pending declared (declared' ++ [{ name, binding := b, value }]) uses := by
  obtain ⟨news, rfl, hnews⟩ := h.declares
  have hlast {p : Position} (hp : b.span.contains p) : p ≤ b.span.last :=
    (Span.contains_iff.mp hp).2
  constructor
  · refine ⟨news ++ [{ name, binding := b, value }], List.append_assoc _ _ _, ?_⟩
    intro v hv
    rcases List.mem_append.mp hv with hv | hv
    · obtain ⟨hfirst, hstop, hle⟩ := hnews v hv
      exact ⟨(hspan _ hfirst).2, (hspan _ hstop).2, hle⟩
    · rw [List.mem_singleton.mp hv]
      exact ⟨hname, hend, hlast hname⟩
  · intro u hu
    obtain ⟨hplace, before, own, later, hbefore, hlater, hown, hb, hl, ho⟩ := h.meets u hu
    obtain ⟨hafter, hwithin⟩ := hspan _ hplace
    refine ⟨hwithin, before, b :: own, later ++ [{ name, binding := b, value }], hbefore, ?_, ?_, hb, ?_, ?_⟩
    · rw [hlater, List.append_assoc]
    · rw [hown, List.append_assoc]
      rfl
    · intro v hv
      rcases List.mem_append.mp hv with hv | hv
      · exact (hl v hv).imp_left (List.mem_cons_of_mem b)
      · rw [List.mem_singleton.mp hv]
        exact .inl List.mem_cons_self
    · intro c hc
      rw [List.map_append]
      rcases List.mem_cons.mp hc with rfl | hc
      · exact ⟨by simp, hafter, hlast hwithin⟩
      · obtain ⟨hdeclared, hspans⟩ := ho c hc
        exact ⟨List.mem_append_left _ hdeclared, hspans⟩

end Traced

/-- Nodes that stand one behind the other are evaluated in their places. -/
theorem usesAll_traced {nodes : List Node}
    (hpairwise : nodes.Pairwise (·.span.last < ·.span.first))
    (h : ∀ node ∈ nodes, ∀ pending declared, Traced (node.span.contains ·) pending declared
      (node.declare declared) (node.uses pending declared))
    (pending : List Binding) (declared : List Variable) :
    Traced (fun p => ∃ node ∈ nodes, node.span.contains p) pending declared
      (Node.declareAll nodes declared) (Node.usesAll nodes pending declared) := by
  induction nodes generalizing declared with
  | nil => exact .nil declared
  | cons node nodes ih =>
    rw [List.pairwise_cons] at hpairwise
    have hfirst := h node List.mem_cons_self pending declared
    have hrest := ih hpairwise.2 (fun n hn => h n (List.mem_cons_of_mem _ hn))
      (node.declare declared)
    refine (hfirst.append hrest ?_).mono ?_
    · rintro p q hp ⟨other, hother, hq⟩
      rw [Span.contains_iff] at hp hq
      exact (hp.2.trans_lt (hpairwise.1 other hother)).trans_le hq.1
    · rintro p (hp | ⟨other, hother, hp⟩)
      · exact ⟨node, List.mem_cons_self, hp⟩
      · exact ⟨other, List.mem_cons_of_mem _ hother, hp⟩

/-- A well-nested node is evaluated within its span. -/
theorem Node.Nested.traced {node : Node} (h : node.Nested) (pending : List Binding)
    (declared : List Variable) :
    Traced (node.span.contains ·) pending declared (node.declare declared)
      (node.uses pending declared) := by
  induction h generalizing pending declared with
  | @intro node hforward hencloses hpairwise hnested ih =>
    have hchildren : ∀ child ∈ node.children, child.span.first ≤ child.span.last := by
      intro child hchild
      obtain ⟨hforward, -, -, -⟩ := hnested child hchild
      exact hforward
    rcases node.visit with ⟨i, rfl⟩ | ⟨b, rfl⟩ | hplain
    · have hplace : i.span.contains i.span.first := Span.contains_iff.mpr ⟨le_rfl, hforward⟩
      rw [declare_ident]
      exact Traced.single (i := i) hplace
    · have hname : Node.ident b.name ∈ (Node.binding b).children := by simp [children]
      have hvalue : Node.expr b.value ∈ (Node.binding b).children := by simp [children]
      have hlt : b.name.span.last < b.value.span.first :=
        List.rel_of_pairwise_cons hpairwise (List.mem_singleton_self _)
      refine (ih _ hvalue (pending ++ [b]) declared).bind ?_ ?_ ?_
      · intro p hp
        have hfirst := (hchildren _ hname).trans hlt.le
        exact ⟨hfirst.trans (Span.contains_iff.mp hp).1,
          Span.contains_of_encloses (hencloses _ hvalue) hp⟩
      · refine Span.contains_of_encloses (hencloses _ hname) ?_
        exact Span.contains_iff.mpr ⟨le_rfl, hchildren _ hname⟩
      · exact Span.contains_iff.mpr ⟨hforward, le_rfl⟩
    · rw [(hplain pending declared).1, (hplain pending declared).2]
      refine (usesAll_traced hpairwise ih pending declared).mono ?_
      rintro p ⟨child, hchild, hp⟩
      exact Span.contains_of_encloses (hencloses child hchild) hp

end PayFormula
