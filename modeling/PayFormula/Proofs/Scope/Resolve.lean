import Mathlib.Data.List.Find
import PayFormula.Document.Basic
import PayFormula.Proofs.Scope.Declared
import PayFormula.Proofs.Scope.Trace
import PayFormula.Proofs.Tree.Search

/-!
# Two ways to resolve a name

Evaluation resolves a name to the latest variable declared so far, a document to
the latest one of all whose name does not stand behind the use. The two agree
but for an identifier in the value of a binding of its own name: there the
document already finds that binding, or the outermost such one.
-/
namespace PayFormula

/-- How evaluation and the whole text see a use: what is declared later stands behind it, or is
pending and reaches over it. -/
theorem Program.uses_spec {p : Program} (h : (Node.program p).Nested) {u : Use} (hu : u ∈ p.uses) :
    (∀ v ∈ u.declared, v.nameSpan.first ≤ u.ident.span.first ∧
      v.binding.span.last < u.ident.span.first) ∧
    (∀ b ∈ u.pending, b.name.span.first ≤ u.ident.span.first ∧
      u.ident.span.first ≤ b.span.last) ∧
    ∃ later, (evaluate p).declared = u.declared ++ later ∧
      (∀ v ∈ later, v.binding ∈ u.pending ∨ u.ident.span.first < v.nameSpan.first) ∧
      ∀ b ∈ u.pending, b ∈ later.map (·.binding) := by
  obtain ⟨-, before, own, later, hbefore, hlater, hown, hb, hl, ho⟩ := (h.traced [] []).meets u hu
  rw [List.nil_append] at hbefore hown
  subst hown
  refine ⟨?_, fun b hmem => (ho b hmem).2, later, hlater, hl, fun b hmem => (ho b hmem).1⟩
  intro v hv
  rw [hbefore] at hv
  obtain ⟨hle, hlt⟩ := hb v hv
  exact ⟨hle.trans hlt.le, hlt⟩

variable {source : String} {u : Use}

/-- The document passes over what is declared later, unless it is pending and has the name. -/
theorem resolve?_of_not_pending (hsize : byteLength source.toList < 0x100000000)
    (hu : u ∈ (parse source).program.uses) (hname : ∀ b ∈ u.pending, b.name.name ≠ u.ident.name) :
    (Document.ofSource source).resolve? u.ident = u.found? := by
  obtain ⟨hbefore, -, later, heq, hlater, -⟩ :=
    Program.uses_spec (parse_program_nested hsize) hu
  have hnone : later.reverse.find?
      (fun v => v.name == u.ident.name && decide (v.nameSpan.first ≤ u.ident.span.first)) =
        none := by
    rw [List.find?_eq_none]
    intro v hv
    rw [Bool.and_eq_true, beq_iff_eq, decide_eq_true_eq]
    rintro ⟨hsame, hle⟩
    rcases hlater v (List.mem_reverse.mp hv) with hpending | hlt
    · have hown := Program.name_of_declared (heq ▸ List.mem_append_right _ (List.mem_reverse.mp hv))
      exact hname _ hpending (hown.symm.trans hsame)
    · exact absurd hlt (not_lt_of_ge hle)
  have hdeclared : u.declared.reverse.find?
      (fun v => v.name == u.ident.name && decide (v.nameSpan.first ≤ u.ident.span.first)) =
        u.declared.reverse.find? (·.name == u.ident.name) := by
    refine List.find?_congr fun v hv => ?_
    rw [decide_eq_true (hbefore v (List.mem_reverse.mp hv)).1, Bool.and_true]
  rw [u.found?_eq, Evaluate.latest?, Document.resolve?, Document.variableAt?]
  change (evaluate (parse source).program).declared.reverse.find? _ = _
  rw [heq, List.reverse_append, List.find?_append, hnone, hdeclared]
  rfl

/-- A pending binding of the name is found by the document, but not during evaluation. -/
theorem resolve?_of_pending (hsize : byteLength source.toList < 0x100000000)
    (hu : u ∈ (parse source).program.uses) {b : Binding} (hb : b ∈ u.pending)
    (hname : b.name.name = u.ident.name) :
    ((Document.ofSource source).resolve? u.ident).map (·.binding) ≠ u.found?.map (·.binding) := by
  obtain ⟨hbefore, hpending, later, heq, hlater, hmem⟩ :=
    Program.uses_spec (parse_program_nested hsize) hu
  obtain ⟨v, hv, rfl⟩ := List.mem_map.mp (hmem b hb)
  have hmatch : v.name == u.ident.name && decide (v.nameSpan.first ≤ u.ident.span.first) := by
    rw [Bool.and_eq_true, beq_iff_eq, decide_eq_true_eq]
    have hown := Program.name_of_declared (heq ▸ List.mem_append_right _ hv)
    exact ⟨hown.trans hname, (hpending _ hb).1⟩
  cases hfind : later.reverse.find?
      (fun v => v.name == u.ident.name && decide (v.nameSpan.first ≤ u.ident.span.first)) with
  | none => exact absurd hmatch (List.find?_eq_none.mp hfind v (List.mem_reverse.mpr hv))
  | some w =>
    have hresolve : (Document.ofSource source).resolve? u.ident = some w := by
      rw [Document.resolve?, Document.variableAt?]
      change (evaluate (parse source).program).declared.reverse.find? _ = _
      rw [heq, List.reverse_append, List.find?_append, hfind]
      rfl
    have hw := List.find?_some hfind
    rw [Bool.and_eq_true, beq_iff_eq, decide_eq_true_eq] at hw
    have hwpending : w.binding ∈ u.pending := by
      have hwl := hlater w (List.mem_reverse.mp (List.mem_of_find?_eq_some hfind))
      exact hwl.resolve_right (not_lt_of_ge hw.2)
    rw [hresolve, u.found?_eq, Evaluate.latest?]
    cases hfound : u.declared.reverse.find? (·.name == u.ident.name) with
    | none => simp
    | some x =>
      intro hsame
      have hbinding : w.binding = x.binding := Option.some.inj hsame
      have hlt := (hbefore x (List.mem_reverse.mp (List.mem_of_find?_eq_some hfound))).2
      rw [← hbinding] at hlt
      exact absurd hlt (not_lt_of_ge (hpending _ hwpending).2)

/-- Evaluation meets every identifier expression, and resolves it to the same binding as the
document just if it stands in no value of a binding of its own name. -/
theorem resolve_agrees_iff (hsize : byteLength source.toList < 0x100000000) :
    (parse source).program.uses.map (·.ident) =
      (Node.program (parse source).program).walk.filterMap Node.used? ∧
    ∀ u ∈ (parse source).program.uses,
      (((Document.ofSource source).resolve? u.ident).map (·.binding) = u.found?.map (·.binding) ↔
        ∀ b ∈ u.pending, b.name.name ≠ u.ident.name) := by
  refine ⟨(parse source).program.map_uses, fun u hu => ⟨?_, ?_⟩⟩
  · intro hsame b hb hname
    exact resolve?_of_pending hsize hu hb hname hsame
  · intro hname
    rw [resolve?_of_not_pending hsize hu hname]

theorem resolve_agrees_iff_shadowed :
    byteLength "var x = 1;\nvar x = x + 1;\nx".toList < 0x100000000 ∧
      ∀ u ∈ (parse "var x = 1;\nvar x = x + 1;\nx").program.uses,
        (((Document.ofSource "var x = 1;\nvar x = x + 1;\nx").resolve? u.ident).map (·.binding) =
            u.found?.map (·.binding) ↔
          ∀ b ∈ u.pending, b.name.name ≠ u.ident.name) := by
  have hsize : byteLength "var x = 1;\nvar x = x + 1;\nx".toList < 0x100000000 := by
    rw [byteLength_toList]
    decide
  exact ⟨hsize, (resolve_agrees_iff hsize).2⟩

/-- In its own value a name resolves to the variable before, but the document says to itself. -/
theorem resolve_disagrees_in_own_value :
    ¬ ∀ source, (parse source).errors = [] → ∀ u ∈ (parse source).program.uses,
      ((Document.ofSource source).resolve? u.ident).map (·.binding) =
        u.found?.map (·.binding) := by
  intro h
  obtain ⟨herrors, hspans⟩ : (parse "var x = 1;\nvar x = x + 1;").errors = [] ∧
      ¬ ∀ u ∈ (parse "var x = 1;\nvar x = x + 1;").program.uses,
        ((Document.ofSource "var x = 1;\nvar x = x + 1;").resolve? u.ident).map (·.nameSpan) =
          u.found?.map (·.nameSpan) := by decide +kernel
  refine hspans fun u hu => ?_
  have hbinding := congrArg (Option.map fun b => b.name.span) (h _ herrors u hu)
  rwa [Option.map_map, Option.map_map] at hbinding

end PayFormula
