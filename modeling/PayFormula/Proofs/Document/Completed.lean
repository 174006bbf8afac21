import Mathlib.Data.List.Find
import PayFormula.Document.Completion
import PayFormula.Proofs.Position

/-!
# Which variables are completed

Completion and hovering select a variable of a name in two ways: one leaves out,
from front to back, the variables that a later one of the same name hides, the
other searches from the back. They select the same variable wherever no variable
of the name is declared at the very place, for only there it matters that the
search takes in what starts at a place and completion does not.
-/
namespace PayFormula

theorem Evaluate.latest?_cons (name : String) (v : Variable) (later : List Variable) :
    latest? name (v :: later) =
      (latest? name later).or (if v.name = name then some v else none) := by
  rw [latest?, latest?, List.reverse_cons, List.find?_append, List.find?_singleton]
  simp only [beq_iff_eq]

theorem Evaluate.latest?_isSome_iff {name : String} {declared : List Variable} :
    (latest? name declared).isSome ↔ ∃ v ∈ declared, v.name = name := by
  simp only [latest?, List.find?_isSome, List.mem_reverse, beq_iff_eq]

namespace Completion

variable {declared : List Variable} {v : Variable}

/-- Of the variables of one name the one that a search from the back finds is kept. -/
theorem mem_latest_iff : v ∈ latest declared ↔ Evaluate.latest? v.name declared = some v := by
  induction declared with
  | nil => simp [latest, Evaluate.latest?]
  | cons w later ih =>
    have hhides : later.any (·.name == w.name) = (Evaluate.latest? w.name later).isSome := by
      rw [Bool.eq_iff_iff, Evaluate.latest?_isSome_iff, List.any_eq_true]
      simp only [beq_iff_eq]
    rw [latest, Evaluate.latest?_cons, hhides]
    cases hlater : Evaluate.latest? w.name later with
    | some u =>
      -- the search stops behind the variable that is left out
      rw [Option.isSome_some, if_pos rfl, ih]
      by_cases hname : w.name = v.name
      · rw [← hname, hlater, Option.some_or]
      · rw [if_neg hname, Option.or_none]
    | none =>
      rw [Option.isSome_none, if_neg Bool.false_ne_true, List.mem_cons, ih]
      by_cases hname : w.name = v.name
      · rw [← hname, hlater, if_pos rfl, Option.none_or, Option.some_inj]
        simp [eq_comm]
      · rw [if_neg hname, Option.or_none, or_iff_right]
        rintro rfl
        exact hname rfl

theorem latest_subset : latest declared ⊆ declared := by
  intro v hv
  exact List.mem_reverse.mp (List.mem_of_find?_eq_some (mem_latest_iff.mp hv))

theorem latest_names_nodup : ((latest declared).map (·.name)).Nodup := by
  induction declared with
  | nil => exact List.nodup_nil
  | cons w later ih =>
    rw [latest]
    split
    · exact ih
    · rename_i hhides
      refine List.nodup_cons.mpr ⟨fun hmem => hhides ?_, ih⟩
      obtain ⟨v, hv, hname⟩ := List.mem_map.mp hmem
      exact List.any_eq_true.mpr ⟨v, latest_subset hv, beq_iff_eq.mpr hname⟩

theorem mem_latest_names_iff {name : String} :
    name ∈ (latest declared).map (·.name) ↔ ∃ v ∈ declared, v.name = name := by
  refine ⟨fun h => ?_, fun h => ?_⟩
  · obtain ⟨v, hv, hname⟩ := List.mem_map.mp h
    exact ⟨v, latest_subset hv, hname⟩
  · obtain ⟨v, hv⟩ := Option.isSome_iff_exists.mp (Evaluate.latest?_isSome_iff.mpr h)
    have hname : v.name = name := by simpa using List.find?_some hv
    exact List.mem_map.mpr ⟨v, mem_latest_iff.mpr (hname.symm ▸ hv), hname⟩

end Completion

namespace Document

variable (d : Document) {place : Position}

/-- The variables among the completions. -/
theorem completions_variables (place : Position) (withKeywords : Bool) :
    (d.completions place ⟨true, withKeywords⟩).filter (·.kind == .variableName) =
      (Completion.latest (d.declaredBefore place)).map .ofVariable := by
  have hfunctions : (Catalog.functions.map Completion.ofFunction).filter
      (·.kind == .variableName) = [] :=
    List.filter_eq_nil_iff.mpr (List.forall_mem_map.mpr fun _ _ => Bool.false_ne_true)
  have hvariables (declared : List Variable) : (declared.map Completion.ofVariable).filter
      (·.kind == .variableName) = declared.map .ofVariable :=
    List.filter_eq_self.mpr (List.forall_mem_map.mpr fun _ _ => rfl)
  rw [completions, List.filter_append, List.filter_append, hfunctions, if_pos rfl, hvariables,
    List.nil_append, List.append_right_eq_self]
  -- what is left are the keywords
  split
  · exact List.filter_eq_nil_iff.mpr (List.forall_mem_map.mpr fun _ _ => Bool.false_ne_true)
  · rfl

/-- Where no variable of the name is declared, the latest one up to a place is the latest before. -/
theorem variableAt?_eq_latest? {name : String}
    (h : ∀ v ∈ d.declared, v.name = name → v.nameSpan.first ≠ place) :
    d.variableAt? name place = Evaluate.latest? name (d.declaredBefore place) := by
  rw [variableAt?, Evaluate.latest?, declaredBefore, ← List.filter_reverse, List.find?_filter]
  refine List.find?_congr fun v hv => ?_
  by_cases hname : v.name = name
  · have hplace := h v (List.mem_reverse.mp hv) hname
    simp [hname, le_iff_lt_or_eq, hplace]
  · simp [hname]

/-- Completion offers each name once that is declared before a place, with the variable that the
name stands for there, unless another one of the name is declared at the very place. -/
theorem completions_visible (d : Document) (place : Position) (withKeywords : Bool) :
    let offered := (d.completions place ⟨true, withKeywords⟩).filter (·.kind == .variableName)
    (offered.map (·.label)).Nodup ∧
      (∀ name, name ∈ offered.map (·.label) ↔
        ∃ v ∈ d.declared, v.name = name ∧ v.nameSpan.first < place) ∧
      ∀ item ∈ offered,
        (∀ v ∈ d.declared, v.name = item.label → v.nameSpan.first ≠ place) →
          ∃ v, d.variableAt? item.label place = some v ∧ item.detail = some v.type.name ∧
            item = .ofVariable v := by
  intro offered
  have hoffered : offered = (Completion.latest (d.declaredBefore place)).map .ofVariable :=
    d.completions_variables place withKeywords
  have hlabels : offered.map (·.label) =
      (Completion.latest (d.declaredBefore place)).map (·.name) := by
    rw [hoffered, List.map_map]
    rfl
  refine ⟨?_, fun name => ?_, fun item hitem hplace => ?_⟩
  · rw [hlabels]
    exact Completion.latest_names_nodup
  · rw [hlabels, Completion.mem_latest_names_iff]
    simp only [declaredBefore, List.mem_filter, decide_eq_true_eq, and_assoc]
    exact exists_congr fun v => and_congr_right fun _ => and_comm
  · rw [hoffered] at hitem
    obtain ⟨v, hv, rfl⟩ := List.mem_map.mp hitem
    refine ⟨v, ?_, rfl, rfl⟩
    exact (d.variableAt?_eq_latest? hplace).trans (Completion.mem_latest_iff.mp hv)

/-- Of two variables of a name the later one is offered, here at the very place at which one of
another name is declared. -/
theorem completions_visible_shadowed :
    let d := Document.ofSource "var x = 1;\nvar y = sum(var x = \"two\"; x, var y = x; y);"
    let offered := (d.completions ⟨1, 34⟩ ⟨true, true⟩).filter (·.kind == .variableName)
    let item := Completion.mk "x" (some "string") .variableName "x" none
    item ∈ offered ∧ (∀ v ∈ d.declared, v.name = item.label → v.nameSpan.first ≠ ⟨1, 34⟩) ∧
      ∃ v, d.variableAt? item.label ⟨1, 34⟩ = some v ∧ item.detail = some v.type.name ∧
        item = .ofVariable v := by
  intro d offered item
  obtain ⟨hitem, hplace⟩ : item ∈ offered ∧
      ∀ v ∈ d.declared, v.name = item.label → v.nameSpan.first ≠ ⟨1, 34⟩ := by decide +kernel
  exact ⟨hitem, hplace, (completions_visible d ⟨1, 34⟩ true).2.2 item hitem hplace⟩

end Document

end PayFormula
