import PayFormula.Document.Hover
import PayFormula.Document.Rename
import PayFormula.Proofs.Grammar.Names
import PayFormula.Proofs.Scope.Declared
import PayFormula.Proofs.Token.Word

/-!
# What is asked at a place

Hovering looks a place up among the tokens, the definition is searched for in
the tree, and renaming walks through all of it. They agree, for the names of the
tree are tokens of the text, and a span belongs to one name only. A variable
that some name refers to is the one that its own declared name refers to.
-/
namespace PayFormula

/-- The text that shows a variable: a line of code with its name and its type. -/
def Hover.card (name : String) (type : ValueType) : String :=
  "```wflang\n" ++ ("var " ++ name ++ ": " ++ type.name) ++ "\n```"

theorem isPrefix_append {front : List Char} {text : String} (h : front <+: text.toList)
    (more : String) : front <+: (text ++ more).toList := by
  rw [String.toList_append]
  exact h.trans (List.prefix_append _ _)

theorem Hover.card_starts (name : String) (type : ValueType) :
    "```wflang\n".toList ++ ['v'] <+: (card name type).toList := by
  refine isPrefix_append ?_ _
  rw [String.toList_append, List.prefix_append_right_inj]
  iterate 3 refine isPrefix_append ?_ _
  decide

theorem Function.docstring_starts (f : Function) :
    "```wflang\n".toList ++ f.displayName.toList <+: f.docstring.toList := by
  delta docstring signature
  iterate 8 refine isPrefix_append ?_ _
  simp only [← String.append_assoc]
  iterate 3 refine isPrefix_append ?_ _
  exact ⟨[], (List.append_nil _).trans String.toList_append.symm⟩

/-- What is shown of a function begins with its name, what is shown of a variable with a letter
that begins no function's name. -/
theorem Function.docstring_ne_card {f : Function} (hf : f ∈ Catalog.functions) (name : String)
    (type : ValueType) : f.docstring ≠ Hover.card name type := by
  intro h
  obtain ⟨c, rest, hname, hc⟩ := Catalog.exists_initial f hf
  obtain ⟨others, hdocstring⟩ := f.docstring_starts
  obtain ⟨others', hcard⟩ := Hover.card_starts name type
  rw [h, ← hcard, List.append_assoc, List.append_assoc, hname,
    String.toList_ofList (l := c :: rest)] at hdocstring
  have hv : c = 'v' := (List.cons.inj (List.append_cancel_left hdocstring)).1
  rw [hv] at hc
  exact absurd hc (by decide)

namespace Document

/-- The identifiers of a document, in the order of the text. -/
def names (d : Document) : List Ident := (Node.program d.program).names

theorem of_resolve? {d : Document} {i : Ident} {v : Variable} (h : d.resolve? i = some v) :
    v ∈ d.declared ∧ v.name = i.name ∧ v.nameSpan.first ≤ i.span.first := by
  have hv := List.find?_some h
  rw [Bool.and_eq_true, beq_iff_eq, decide_eq_true_eq] at hv
  exact ⟨List.mem_reverse.mp (List.mem_of_find?_eq_some h), hv⟩

variable {source : String} {place : Position} {i : Ident} {v : Variable}

theorem ofSource_tokens (source : String) : (ofSource source).tokens = tokenize source := by
  change (parseTokens (tokenize source) (.endOf (LineIndex.ofString source))).tokens = _
  rw [parseTokens]

theorem name_of_declared (h : v ∈ (ofSource source).declared) : v.name = v.binding.name.name :=
  Program.name_of_declared (p := (parse source).program) h

/-- The variable that a name refers to is the one that its declared name refers to. -/
theorem resolve?_declared (h : (ofSource source).resolve? i = some v) :
    (ofSource source).resolve? v.binding.name = some v := by
  obtain ⟨hdeclared, hname, hle⟩ := of_resolve? h
  have hown := name_of_declared hdeclared
  obtain ⟨-, before, after, heq, hbefore⟩ := List.find?_eq_some_iff_append.mp h
  refine List.find?_eq_some_iff_append.mpr ⟨?_, before, after, heq, ?_⟩
  · rw [Bool.and_eq_true, beq_iff_eq, decide_eq_true_eq]
    exact ⟨hown, le_rfl⟩
  · -- what the later name passes over, the declared one passes over all the more
    intro w hw
    have hpassed := hbefore w hw
    rw [Bool.not_eq_true', Bool.and_eq_false_iff, beq_eq_false_iff_ne, decide_eq_false_iff_not]
      at hpassed ⊢
    rcases hpassed with hne | hlater
    · exact .inl fun hsame => hne (hsame.trans (hown.symm.trans hname))
    · exact .inr fun hwv => hlater (hwv.trans hle)

/-- Every variable is declared by a name of the tree. -/
theorem declared_name_mem (h : v ∈ (ofSource source).declared) :
    v.binding.name ∈ (ofSource source).names := by
  refine Node.name_mem_of_bound ?_
  change v.binding ∈ (Node.program (parse source).program).bound
  rw [← Program.declared_bindings]
  exact List.mem_map_of_mem h

section Places

variable (hsize : byteLength source.toList < 0x100000000)
include hsize

theorem names_pairwise : (ofSource source).names.Pairwise (·.span.last < ·.span.first) :=
  (parse_program_nested hsize).names_pairwise

theorem contains_first (hi : i ∈ (ofSource source).names) : i.span.contains i.span.first :=
  Span.contains_iff.mpr ⟨le_rfl, ((parse_program_nested hsize).name hi).1⟩

/-- The only name at a place in a name. -/
theorem find?_names (hi : i ∈ (ofSource source).names) (hp : i.span.contains place) :
    (ofSource source).names.find? (·.span.contains place) = some i :=
  Span.find?_eq_some (names_pairwise hsize) hi hp

/-- A span belongs to one name. -/
theorem eq_of_span_eq {j : Ident} (hi : i ∈ (ofSource source).names)
    (hj : j ∈ (ofSource source).names) (h : i.span = j.span) : i = j := by
  have hplace := contains_first hsize hi
  have hfound := find?_names hsize hi hplace
  rw [find?_names hsize hj (h ▸ hplace)] at hfound
  exact (Option.some.inj hfound).symm

/-- The target at a place is that of the name at it. -/
theorem targetAt_eq (place : Position) : (ofSource source).targetAt place false =
    .ok (((ofSource source).names.find? (·.span.contains place)).bind
      (ofSource source).resolve?) := by
  have hnested := parse_program_nested hsize
  have hnode : (ofSource source).program.nodeAt place false =
      if (parse source).program.span.contains place then
        .ok (((Node.program (parse source).program).pathTo place).getLastD
          (.program (parse source).program))
      else .error (.outOfRange place) := by
    change Except.map _ (if !(parse source).program.span.contains place then _ else _) = _
    cases (parse source).program.span.contains place <;> rfl
  by_cases hp : (parse source).program.span.contains place
  · have hfound := hnested.ident?_innermost hp
    rw [targetAt, hnode, if_pos hp]
    exact congrArg (fun found => Except.ok (found.bind (ofSource source).resolve?)) hfound
  · have hnone : (ofSource source).names.find? (·.span.contains place) = none := by
      rw [List.find?_eq_none]
      intro i hi hplace
      exact hp (Span.contains_of_encloses (hnested.name hi).2 hplace)
    rw [targetAt, hnode, if_neg hp, hnone]
    rfl

/-- A definition is looked for at a name that refers to the variable defined. -/
theorem definition_eq_some_iff {span : Span} :
    (ofSource source).definition place false = .ok (some span) ↔
      ∃ i ∈ (ofSource source).names, i.span.contains place ∧
        ∃ v, (ofSource source).resolve? i = some v ∧ v.nameSpan = span := by
  rw [definition, targetAt_eq hsize]
  change Except.ok _ = Except.ok _ ↔ _
  rw [Except.ok.injEq, Option.map_eq_some_iff]
  constructor
  · rintro ⟨v, hv, rfl⟩
    obtain ⟨i, hi, hv⟩ := Option.bind_eq_some_iff.mp hv
    have hplace : i.span.contains place := by simpa using List.find?_some hi
    exact ⟨i, List.mem_of_find?_eq_some hi, hplace, v, hv, rfl⟩
  · rintro ⟨i, hi, hplace, v, hv, rfl⟩
    rw [find?_names hsize hi hplace]
    exact ⟨v, hv, rfl⟩

theorem definition_at_name {span : Span} (hi : i ∈ (ofSource source).names) :
    (ofSource source).definition i.span.first false = .ok (some span) ↔
      ∃ v, (ofSource source).resolve? i = some v ∧ v.nameSpan = span := by
  rw [definition_eq_some_iff hsize]
  constructor
  · rintro ⟨j, hj, hplace, hv⟩
    have hfound := find?_names hsize hj hplace
    rw [find?_names hsize hi (contains_first hsize hi)] at hfound
    rwa [Option.some.inj hfound]
  · exact fun hv => ⟨i, hi, contains_first hsize hi, hv⟩

/-- A declared name that something refers to is its own definition. -/
theorem definition_declared (h : (ofSource source).resolve? i = some v) :
    (ofSource source).definition v.nameSpan.first false = .ok (some v.nameSpan) := by
  have hname := declared_name_mem (of_resolve? h).1
  exact (definition_at_name hsize hname).mpr ⟨v, resolve?_declared h, rfl⟩

/-- The references to a variable are the names whose definition it is. -/
theorem references_eq (hv : v ∈ (ofSource source).declared) :
    (ofSource source).references v = (ofSource source).names.filter fun i =>
      (ofSource source).definition i.span.first false = .ok (some v.nameSpan) := by
  refine List.filter_congr fun i hi => ?_
  rw [Bool.eq_iff_iff, decide_eq_true_eq, definition_at_name hsize hi, Bool.and_eq_true,
    beq_iff_eq, Option.any_eq_true]
  constructor
  · rintro ⟨-, w, hw, hspan⟩
    exact ⟨w, hw, beq_iff_eq.mp hspan⟩
  · rintro ⟨w, hw, hspan⟩
    obtain ⟨hdeclared, hname, -⟩ := of_resolve? hw
    have hsame : w.binding.name = v.binding.name :=
      eq_of_span_eq hsize (declared_name_mem hdeclared) (declared_name_mem hv) hspan
    refine ⟨?_, w, hw, beq_iff_eq.mpr hspan⟩
    rw [← hname, name_of_declared hdeclared, name_of_declared hv, hsame]

/-- The token at a place in a name is that of the name. -/
theorem tokenAt?_name (hi : i ∈ (ofSource source).names) (hp : i.span.contains place) :
    (ofSource source).tokenAt? place = some i.token := by
  have hmem := (parse_named source).sublist.subset (List.mem_map_of_mem hi)
  exact Span.find?_eq_some (Token.ofChars_ordered hsize).left.pairwise
    (List.mem_filter.mp hmem).1 hp

/-- At a place in a name the variable that it refers to is shown, with that name and its type. -/
theorem hover?_name (hi : i ∈ (ofSource source).names) (hp : i.span.contains place)
    (hv : (ofSource source).resolve? i = some v) :
    (ofSource source).hover? place = some ⟨Hover.card i.name v.value.type, i.span⟩ := by
  have hkind := ((parse_named source).valid i hi).kind
  have hvariable : (ofSource source).variableAt? i.token.literal i.token.first = some v := hv
  rw [← (of_resolve? hv).2.1]
  simp only [hover?, tokenAt?_name hsize hi hp, Option.bind_eq_bind, Option.bind_some, hkind,
    hvariable]
  rfl

end Places

/-- A variable is shown only at a name token that one is found for. -/
theorem of_hover?_card {name : String} {type : ValueType} {span : Span}
    (h : (ofSource source).hover? place = some ⟨Hover.card name type, span⟩) :
    ∃ t, (ofSource source).tokenAt? place = some t ∧ t.kind = .ident ∧
      ∃ w, (ofSource source).resolve? ⟨t⟩ = some w := by
  obtain ⟨t, ht, h⟩ := Option.bind_eq_some_iff.mp h
  refine ⟨t, ht, ?_⟩
  split at h
  · obtain ⟨f, hf, h⟩ := Option.bind_eq_some_iff.mp h
    have hcard : f.docstring = Hover.card name type := congrArg Hover.value (Option.some.inj h)
    exact absurd hcard (Function.docstring_ne_card (Catalog.of_lookup? hf).1 name type)
  · rename_i hk
    obtain ⟨w, hw, -⟩ := Option.bind_eq_some_iff.mp h
    exact ⟨hk, w, hw⟩
  · cases h

section Agreement

variable (hsize : byteLength source.toList < 0x100000000)
include hsize

/-- Renaming to a valid name edits the references of the target. -/
theorem rename_eq {newName : String} (hname : validateName newName = .ok ()) (place : Position) :
    (ofSource source).rename place newName false =
      .ok ((((ofSource source).names.find? (·.span.contains place)).bind
        (ofSource source).resolve?).map fun target =>
          ((ofSource source).references target).map fun i => ⟨i.span, newName⟩) := by
  rw [rename, hname, targetAt_eq hsize]
  cases ((ofSource source).names.find? (·.span.contains place)).bind (ofSource source).resolve? <;>
    rfl

/-- Renaming edits just if there is a definition, and then the names that have this definition. -/
theorem rename_eq_some_iff {newName : String} (hname : validateName newName = .ok ())
    {edits : List TextEdit} :
    (ofSource source).rename place newName false = .ok (some edits) ↔
      ∃ span, (ofSource source).definition place false = .ok (some span) ∧
        edits = ((ofSource source).names.filter fun i =>
          (ofSource source).definition i.span.first false = .ok (some span)).map
            fun i => ⟨i.span, newName⟩ := by
  rw [rename_eq hsize hname, Except.ok.injEq, Option.map_eq_some_iff]
  have hdefinition (target : Variable)
      (ht : ((ofSource source).names.find? (·.span.contains place)).bind
        (ofSource source).resolve? = some target) : target ∈ (ofSource source).declared ∧
      (ofSource source).definition place false = .ok (some target.nameSpan) := by
    obtain ⟨i, -, hi⟩ := Option.bind_eq_some_iff.mp ht
    refine ⟨(of_resolve? hi).1, ?_⟩
    rw [definition, targetAt_eq hsize, ht]
    rfl
  constructor
  · rintro ⟨target, ht, rfl⟩
    obtain ⟨hdeclared, hspan⟩ := hdefinition target ht
    exact ⟨target.nameSpan, hspan, by rw [references_eq hsize hdeclared]⟩
  · rintro ⟨span, hspan, rfl⟩
    have hspan' := hspan
    rw [definition, targetAt_eq hsize] at hspan'
    obtain ⟨target, ht, rfl⟩ := Option.map_eq_some_iff.mp (Except.ok.inj hspan')
    exact ⟨target, ht, by rw [references_eq hsize (hdefinition target ht).1]⟩

end Agreement

end Document

open Document

/-- The queries at a place tell of one variable: renaming edits the names that have the definition,
this one's own among them; there the name is shown with the type of the variable; and in a text
without errors nothing else is shown as a variable. -/
theorem queries_agree {source : String} (hsize : byteLength source.toList < 0x100000000)
    (place : Position) :
    (∀ newName, validateName newName = .ok () →
      ((∃ edits, (ofSource source).rename place newName false = .ok (some edits)) ↔
        ∃ span, (ofSource source).definition place false = .ok (some span)) ∧
      ∀ edits span, (ofSource source).rename place newName false = .ok (some edits) →
        (ofSource source).definition place false = .ok (some span) →
        edits.map (·.span) = ((ofSource source).names.filter fun i =>
          (ofSource source).definition i.span.first false = .ok (some span)).map Ident.span ∧
        edits.Pairwise (·.span.last < ·.span.first) ∧ span ∈ edits.map (·.span)) ∧
    (∀ span, (ofSource source).definition place false = .ok (some span) →
      ∃ i ∈ (ofSource source).names, i.span.contains place ∧
        ∃ v ∈ (ofSource source).declared, v.nameSpan = span ∧ v.name = i.name ∧
          (ofSource source).hover? place = some ⟨Hover.card i.name v.value.type, i.span⟩) ∧
    ((parse source).errors = [] →
      (∃ name type shown,
        (ofSource source).hover? place = some ⟨Hover.card name type, shown⟩) →
      ∃ span, (ofSource source).definition place false = .ok (some span)) := by
  refine ⟨fun newName hname => ⟨?_, ?_⟩, ?_, ?_⟩
  · simp only [rename_eq_some_iff hsize hname]
    constructor
    · rintro ⟨-, span, hspan, -⟩
      exact ⟨span, hspan⟩
    · rintro ⟨span, hspan⟩
      exact ⟨_, span, hspan, rfl⟩
  · intro edits span hedits hspan
    obtain ⟨span', hspan', rfl⟩ := (rename_eq_some_iff hsize hname).mp hedits
    obtain rfl : span = span' := Option.some.inj (Except.ok.inj (hspan.symm.trans hspan'))
    refine ⟨by rw [List.map_map]; rfl, ?_, ?_⟩
    · rw [List.pairwise_map]
      exact (names_pairwise hsize).sublist List.filter_sublist
    · obtain ⟨i, -, -, v, hv, rfl⟩ := (definition_eq_some_iff hsize).mp hspan
      have hname := declared_name_mem (of_resolve? hv).1
      have hself := definition_declared hsize hv
      rw [List.map_map]
      refine List.mem_map.mpr ⟨v.binding.name, List.mem_filter.mpr ⟨hname, ?_⟩, rfl⟩
      exact decide_eq_true hself
  · intro span hspan
    obtain ⟨i, hi, hplace, v, hv, rfl⟩ := (definition_eq_some_iff hsize).mp hspan
    obtain ⟨hdeclared, hname, -⟩ := of_resolve? hv
    exact ⟨i, hi, hplace, v, hdeclared, rfl, hname, hover?_name hsize hi hplace hv⟩
  · rintro herrors ⟨name, type, shown, hshown⟩
    obtain ⟨t, ht, hk, w, hw⟩ := of_hover?_card hshown
    have hident : t ∈ (tokenize source).filter (·.kind = .ident) :=
      List.mem_filter.mpr ⟨List.mem_of_find?_eq_some ht, decide_eq_true hk⟩
    rw [← parse_named_strict herrors] at hident
    obtain ⟨i, hi, rfl⟩ := List.mem_map.mp hident
    have hplace : i.token.span.contains place := by simpa using List.find?_some ht
    exact ⟨w.nameSpan, (definition_eq_some_iff hsize).mpr ⟨i, hi, hplace, w, hw, rfl⟩⟩

/-- In the value of a binding its own name is meant, and the type is that of the variable before. -/
theorem queries_agree_own_value :
    let d := ofSource "var x = 1;\nvar x = x;"
    byteLength d.source.toList < 0x100000000 ∧ validateName "y" = .ok () ∧
      (parse d.source).errors = [] ∧
      d.definition ⟨1, 8⟩ false = .ok (some ⟨⟨1, 4⟩, ⟨1, 4⟩⟩) ∧
      (∃ edits, d.rename ⟨1, 8⟩ "y" false = .ok (some edits) ∧
        edits.map (·.span) = [⟨⟨1, 4⟩, ⟨1, 4⟩⟩, ⟨⟨1, 8⟩, ⟨1, 8⟩⟩]) ∧
      d.hover? ⟨1, 8⟩ = some ⟨"```wflang\nvar x: number\n```", ⟨⟨1, 8⟩, ⟨1, 8⟩⟩⟩ := by
  intro d
  -- all at once, for the kernel computes the names of the catalog anew in each proof
  obtain ⟨hsize, hname, herrors, hspan, hnames, hplaces, htype⟩ :
      byteLength d.source.toList < 0x100000000 ∧ validateName "y" = .ok () ∧
      (parse d.source).errors = [] ∧
      d.definition ⟨1, 8⟩ false = .ok (some ⟨⟨1, 4⟩, ⟨1, 4⟩⟩) ∧
      (d.names.filter fun i => d.definition i.span.first false =
        .ok (some ⟨⟨1, 4⟩, ⟨1, 4⟩⟩)).map Ident.span =
          [⟨⟨1, 4⟩, ⟨1, 4⟩⟩, ⟨⟨1, 8⟩, ⟨1, 8⟩⟩] ∧
      (∀ i ∈ d.names, i.span.contains ⟨1, 8⟩ → i.name = "x" ∧ i.span = ⟨⟨1, 8⟩, ⟨1, 8⟩⟩) ∧
      ∀ v ∈ d.declared, v.nameSpan = ⟨⟨1, 4⟩, ⟨1, 4⟩⟩ → v.value.type = .number := by decide +kernel
  obtain ⟨hrename, hhover, -⟩ := queries_agree hsize ⟨1, 8⟩
  obtain ⟨edits, hedits⟩ := (hrename "y" hname).1.mpr ⟨_, hspan⟩
  have hedited := ((hrename "y" hname).2 edits _ hedits hspan).1
  obtain ⟨i, hi, hplace, v, hv, hdeclared, -, hshown⟩ := hhover _ hspan
  rw [(hplaces i hi hplace).1, (hplaces i hi hplace).2, htype v hv hdeclared] at hshown
  exact ⟨hsize, hname, herrors, hspan, ⟨edits, hedits, hedited.trans hnames⟩, hshown⟩

end PayFormula
