import PayFormula.Proofs.Document.Edited
import PayFormula.Proofs.Document.Queries
import PayFormula.Proofs.Grammar.Anonymous

/-!
# Renaming

A variable and all that refers to it are given a name that the text does not
have. The tokens and the tree of the text stay what they were but for this name,
and every identifier refers to the same variable as before: a declaration of the
old name is edited just if its own name refers to the target, so that an edited
use and the declaration it is found at are edited together.
-/
namespace PayFormula

/-- A search goes the same way in another list if it passes over nothing that it passes over there
and stops at what it stops at. -/
theorem find?_rel {α β : Type} {R : α → β → Prop} {l : List α} {l' : List β}
    (h : List.Forall₂ R l l') {p : α → Bool} {p' : β → Bool}
    (hback : ∀ a ∈ l, ∀ a' ∈ l', R a a' → p' a' → p a)
    (hfound : ∀ a, ∀ a' ∈ l', R a a' → l.find? p = some a → p' a') :
    Option.Rel R (l.find? p) (l'.find? p') := by
  induction h with
  | nil => exact .none
  | @cons a a' l l' ha _ ih =>
    by_cases hp : p a
    · have hfind : (a :: l).find? p = some a := List.find?_cons_of_pos hp
      rw [hfind, List.find?_cons_of_pos (hfound a a' List.mem_cons_self ha hfind)]
      exact .some ha
    · have hp' : ¬ p' a' :=
        fun hp' => hp (hback a List.mem_cons_self a' List.mem_cons_self ha hp')
      rw [List.find?_cons_of_neg hp] at hfound ⊢
      rw [List.find?_cons_of_neg hp']
      exact ih
        (fun b hb b' hb' => hback b (List.mem_cons_of_mem _ hb) b' (List.mem_cons_of_mem _ hb'))
        (fun b b' hb' => hfound b b' (List.mem_cons_of_mem _ hb'))

namespace Document

/-- What edits that give a variable a new name make of a document. -/
structure Renamed (d d' : Document) (edits : List TextEdit) (newName : String) : Prop where
  /-- The edits stand one behind the other. -/
  ordered : edits.Pairwise (·.span.last < ·.span.first)
  /-- Each edit puts the name in the place of an identifier. -/
  each : ∀ e ∈ edits, e.span.first ≤ e.span.last ∧ e.newText = newName ∧
    ∃ t ∈ d.tokens, t.kind = .ident ∧ t.span = e.span
  /-- The tokens keep their kinds, and their texts where they are not edited. -/
  tokens : List.Forall₂ (fun t t' => t'.kind = t.kind ∧
    t'.literal = if t.span ∈ edits.map TextEdit.span then newName else t.literal) d.tokens d'.tokens
  /-- The statements differ in the places and the texts of names only. -/
  shape : d'.program.statements.map (Statement.map Token.anonymous) =
    d.program.statements.map (Statement.map Token.anonymous)
  /-- Identifiers at the same tokens refer to variables declared at the same tokens or to none. -/
  resolved : List.Forall₂ (fun i i' => i.Corresponds d.tokens d'.tokens i' ∧
    Option.Rel (fun v v' => v.binding.name.Corresponds d.tokens d'.tokens v'.binding.name)
      (d.resolve? i) (d'.resolve? i')) d.names d'.names

theorem ofSource_declared (source : String) :
    (ofSource source).declared = (evaluate (parse source).program).declared := rfl

theorem ofSource_program (source : String) : (ofSource source).program = (parse source).program :=
  rfl

theorem ofSource_names (source : String) :
    (ofSource source).names = (Node.program (parse source).program).names := rfl

theorem resolve?_eq (d : Document) (i : Ident) : d.resolve? i =
    d.declared.reverse.find? fun v =>
      v.name == i.name && decide (v.nameSpan.first ≤ i.span.first) := rfl

theorem of_targetAt {d : Document} {place : Position} {cancelled : Bool} {target : Variable}
    (h : d.targetAt place cancelled = .ok (some target)) : ∃ i, d.resolve? i = some target := by
  unfold targetAt at h
  split at h
  · obtain ⟨i, -, hi⟩ := Option.bind_eq_some_iff.mp (Except.ok.inj h)
    exact ⟨i, hi⟩
  · cases h
  · cases h

theorem of_rename {d : Document} {place : Position} {newName : String} {cancelled : Bool}
    {edits : List TextEdit} (h : d.rename place newName cancelled = .ok (some edits)) :
    validateName newName = .ok () ∧ ∃ i target, d.resolve? i = some target ∧
      edits = (d.references target).map fun i => ⟨i.span, newName⟩ := by
  unfold rename at h
  cases hname : validateName newName with
  | error e =>
    rw [hname] at h
    cases h
  | ok =>
    rw [hname] at h
    refine ⟨rfl, ?_⟩
    cases htarget : d.targetAt place cancelled with
    | error e =>
      rw [htarget] at h
      cases h
    | ok found =>
      rw [htarget] at h
      cases found with
      | none => cases h
      | some target =>
        obtain ⟨i, hi⟩ := of_targetAt htarget
        exact ⟨i, target, hi, (Option.some.inj (Except.ok.inj h)).symm⟩

section Edits

variable {source newName : String} {edits : List TextEdit} {use i : Ident} {target : Variable}
  (hsize : byteLength source.toList < 0x100000000)
  (hedits : edits = ((ofSource source).references target).map fun i => ⟨i.span, newName⟩)
include hsize hedits

theorem edits_renaming : TextEdit.Renaming source.toList newName edits where
  pairwise := by
    rw [hedits, List.pairwise_map]
    exact (names_pairwise hsize).sublist List.filter_sublist
  newText e he := by
    rw [hedits] at he
    obtain ⟨i, -, rfl⟩ := List.mem_map.mp he
    rfl
  token e he := by
    rw [hedits] at he
    obtain ⟨i, hi, rfl⟩ := List.mem_map.mp he
    have hi := (List.mem_filter.mp hi).1
    exact ⟨i.token, mem_tokenize_of_name hi, ((parse_named source).valid i hi).kind, rfl⟩

/-- Only names are edited. -/
theorem isName_of_edited {t : Token} (ht : t ∈ tokenize source)
    (hedited : t.span ∈ edits.map TextEdit.span) : t.IsName := by
  rw [hedits, List.map_map] at hedited
  obtain ⟨i, hi, hspan⟩ := List.mem_map.mp hedited
  have hi := (List.mem_filter.mp hi).1
  rw [← Token.eq_of_span_eq hsize (mem_tokenize_of_name hi) ht hspan]
  exact (parse_named source).valid i hi

variable (hname : validateName newName = .ok ())
include hname

theorem applied_pieces : (tokenize source).map (Token.pieceAfter edits newName) =
    (tokenize (TextEdit.applyAll edits source)).map Token.piece :=
  ((edits_renaming hsize hedits).tokenize_pieces hsize (of_validateName hname).1).symm

theorem applied_anonymous : (tokenize source).map Token.anonymous =
    (tokenize (TextEdit.applyAll edits source)).map Token.anonymous := by
  rw [← List.forall₂_eq_eq_eq, List.forall₂_map_left_iff, List.forall₂_map_right_iff]
  refine forall₂_of_map_eq (applied_pieces hsize hedits hname) fun t ht t' _ hpiece => ?_
  obtain ⟨hk, hl⟩ := Prod.mk.inj hpiece
  split at hl
  · rename_i hedited
    have hisName := isName_of_edited hsize hedits ht hedited
    obtain ⟨htext, hblank⟩ := of_validateName hname
    rw [hl] at htext hblank
    exact Token.anonymous_of_isName hisName
      (Token.isName_of_text (hk.symm.trans hisName.kind) htext hblank)
  · exact Token.anonymous_congr hk hl

/-- The name of an identifier after the edits. -/
theorem applied_name {i' : Ident} (hc : i.Corresponds (tokenize source)
    (tokenize (TextEdit.applyAll edits source)) i') :
    i'.name = if i.span ∈ edits.map TextEdit.span then newName else i.name := by
  obtain ⟨n, hn, hn'⟩ := hc
  have hpieces := congrArg (·[n]?) (applied_pieces hsize hedits hname)
  simp only [List.getElem?_map, hn, hn', Option.map_some, Option.some.injEq] at hpieces
  exact (congrArg Prod.snd hpieces).symm

omit hname

variable (htarget : (ofSource source).resolve? use = some target)
include htarget

/-- The names that are edited are those that refer to the target. -/
theorem edited_iff (hi : i ∈ (ofSource source).names) : i.span ∈ edits.map TextEdit.span ↔
    ∃ v, (ofSource source).resolve? i = some v ∧ v.nameSpan = target.nameSpan := by
  have hreferences (j : Ident) (hj : j ∈ (ofSource source).names) :
      j ∈ (ofSource source).references target ↔
        ∃ v, (ofSource source).resolve? j = some v ∧ v.nameSpan = target.nameSpan := by
    rw [references_eq hsize (of_resolve? htarget).1, List.mem_filter, decide_eq_true_eq,
      definition_at_name hsize hj]
    exact and_iff_right hj
  rw [← hreferences i hi, hedits, List.map_map, List.mem_map]
  constructor
  · rintro ⟨j, hj, hspan⟩
    obtain rfl := eq_of_span_eq hsize (List.mem_filter.mp hj).1 hi hspan
    exact hj
  · exact fun hi => ⟨i, hi, rfl⟩

theorem name_of_edited (hi : i ∈ (ofSource source).names)
    (hedited : i.span ∈ edits.map TextEdit.span) : i.name = target.name := by
  obtain ⟨v, hv, hspan⟩ := (edited_iff hsize hedits htarget hi).mp hedited
  obtain ⟨hdeclared, hname, -⟩ := of_resolve? hv
  have hsame : v.binding.name = target.binding.name :=
    eq_of_span_eq hsize (declared_name_mem hdeclared) (declared_name_mem (of_resolve? htarget).1)
      hspan
  rw [← hname, name_of_declared hdeclared, name_of_declared (of_resolve? htarget).1, hsame]

/-- A name is edited together with the declared name of the variable it refers to. -/
theorem edited_declared_iff {v : Variable} (hi : i ∈ (ofSource source).names)
    (hv : (ofSource source).resolve? i = some v) :
    v.binding.name.span ∈ edits.map TextEdit.span ↔ i.span ∈ edits.map TextEdit.span := by
  rw [edited_iff hsize hedits htarget hi,
    edited_iff hsize hedits htarget (declared_name_mem (of_resolve? hv).1), hv,
    resolve?_declared hv]

include hname

variable (hfresh : ∀ t ∈ tokenize source, t.kind = .ident → t.literal ≠ newName)
include hfresh

/-- Names are the same after the edits just if they were and are edited both or neither. -/
theorem applied_name_eq_iff {i' j j' : Ident} (hi : i ∈ (ofSource source).names)
    (hj : j ∈ (ofSource source).names)
    (hc : i.Corresponds (tokenize source) (tokenize (TextEdit.applyAll edits source)) i')
    (hc' : j.Corresponds (tokenize source) (tokenize (TextEdit.applyAll edits source)) j') :
    i'.name = j'.name ↔ i.name = j.name ∧
      (i.span ∈ edits.map TextEdit.span ↔ j.span ∈ edits.map TextEdit.span) := by
  have hne {k : Ident} (hk : k ∈ (ofSource source).names) : k.name ≠ newName :=
    hfresh k.token (mem_tokenize_of_name hk) ((parse_named source).valid k hk).kind
  have hsame {k : Ident} (hk : k ∈ (ofSource source).names) :=
    name_of_edited hsize hedits htarget hk
  rw [applied_name hsize hedits hname hc, applied_name hsize hedits hname hc']
  split <;> split
  · rename_i hi' hj'
    simp [hi', hj', hsame hi hi', hsame hj hj']
  · rename_i hi' hj'
    simp [hi', hj', (hne hj).symm]
  · rename_i hi' hj'
    simp [hi', hj', hne hi]
  · rename_i hi' hj'
    simp [hi', hj']

variable (hsize' : byteLength (TextEdit.applyAll edits source).toList < 0x100000000)
include hsize'

omit htarget hfresh in
theorem applied_declared :
    List.Forall₂ (fun v v' : Variable => v.binding.name.Corresponds (tokenize source)
        (tokenize (TextEdit.applyAll edits source)) v'.binding.name)
      (ofSource source).declared (ofSource (TextEdit.applyAll edits source)).declared := by
  have hbound := bound_correspond hsize hsize' (applied_anonymous hsize hedits hname)
  rw [← Program.declared_bindings, ← Program.declared_bindings, List.forall₂_map_left_iff,
    List.forall₂_map_right_iff] at hbound
  rw [ofSource_declared, ofSource_declared]
  exact hbound

omit htarget hfresh in
theorem applied_names : List.Forall₂ (Ident.Corresponds (tokenize source)
      (tokenize (TextEdit.applyAll edits source)))
    (ofSource source).names (ofSource (TextEdit.applyAll edits source)).names := by
  rw [ofSource_names, ofSource_names]
  exact names_correspond hsize hsize' (applied_anonymous hsize hedits hname)

/-- An identifier refers to the variable that it referred to. -/
theorem applied_resolve? {i' : Ident} (hi : i ∈ (ofSource source).names)
    (hc : i.Corresponds (tokenize source) (tokenize (TextEdit.applyAll edits source)) i') :
    Option.Rel (fun v v' => v.binding.name.Corresponds (tokenize source)
        (tokenize (TextEdit.applyAll edits source)) v'.binding.name)
      ((ofSource source).resolve? i)
      ((ofSource (TextEdit.applyAll edits source)).resolve? i') := by
  have horder {v v' : Variable} (hv : v.binding.name.Corresponds (tokenize source)
      (tokenize (TextEdit.applyAll edits source)) v'.binding.name) :
      v'.nameSpan.first ≤ i'.span.first ↔ v.nameSpan.first ≤ i.span.first := by
    obtain ⟨n, hn, hn'⟩ := hc
    obtain ⟨m, hm, hm'⟩ := hv
    have hbefore := (Token.ofChars_ordered hsize).left.first_le_iff hm hn
    have hafter := (Token.ofChars_ordered hsize').left.first_le_iff hm' hn'
    exact hafter.trans hbefore.symm
  have hdeclared := List.forall₂_reverse_iff.mpr (applied_declared hsize hedits hname hsize')
  rw [resolve?_eq, resolve?_eq]
  refine find?_rel hdeclared ?_ ?_
  · -- as the name is fresh, what matches now has matched before
    intro v hv v' hv' hvv' hmatch
    have hmem := List.mem_reverse.mp hv
    have hsame :=
      applied_name_eq_iff hsize hedits hname htarget hfresh (declared_name_mem hmem) hi hvv' hc
    rw [Bool.and_eq_true, beq_iff_eq, decide_eq_true_eq, name_of_declared hmem]
    rw [Bool.and_eq_true, beq_iff_eq, decide_eq_true_eq,
      name_of_declared (List.mem_reverse.mp hv')] at hmatch
    exact ⟨(hsame.mp hmatch.1).1, (horder hvv').mp hmatch.2⟩
  · -- what was found still matches, being edited just if the identifier is
    intro v v' hv' hvv' hfind
    have hfound : (ofSource source).resolve? i = some v := hfind
    obtain ⟨hmem, hname', hle⟩ := of_resolve? hfound
    have hsame := applied_name_eq_iff hsize hedits hname htarget hfresh (declared_name_mem hmem) hi
      hvv' hc
    rw [name_of_declared hmem] at hname'
    rw [Bool.and_eq_true, beq_iff_eq, decide_eq_true_eq,
      name_of_declared (List.mem_reverse.mp hv')]
    exact ⟨hsame.mpr ⟨hname', edited_declared_iff hsize hedits htarget hi hfound⟩,
      (horder hvv').mpr hle⟩

end Edits

end Document

open Document

/-- Renaming to a name that the text does not have is sound: its edits make of the text one with
this name in their places, of the same tokens and the same shape otherwise, in which every
identifier refers to what it referred to. -/
theorem rename_sound {source newName : String} {place : Position} {cancelled : Bool}
    {edits : List TextEdit} (hsize : byteLength source.toList < 0x100000000)
    (hfresh : ∀ t ∈ tokenize source, t.kind = .ident → t.literal ≠ newName)
    (hrename : (ofSource source).rename place newName cancelled = .ok (some edits))
    (hsize' : byteLength (TextEdit.applyAll edits source).toList < 0x100000000) :
    Renamed (ofSource source) (ofSource (TextEdit.applyAll edits source)) edits newName := by
  obtain ⟨hname, use, target, htarget, hedits⟩ := of_rename hrename
  have hrenaming := edits_renaming hsize hedits
  have hanonymous := applied_anonymous hsize hedits hname
  constructor
  · exact hrenaming.pairwise
  · intro e he
    rw [ofSource_tokens]
    obtain ⟨t, ht, hk, hspan⟩ := hrenaming.token e he
    have hforward := (Token.ofChars_ordered hsize).left.forward t ht
    exact ⟨hspan ▸ hforward, hrenaming.newText e he, t, ht, hk, hspan⟩
  · rw [ofSource_tokens, ofSource_tokens]
    refine forall₂_of_map_eq (applied_pieces hsize hedits hname) fun t _ t' _ hpiece => ?_
    obtain ⟨hk, hl⟩ := Prod.mk.inj hpiece
    exact ⟨hk.symm, hl.symm⟩
  · rw [ofSource_program, ofSource_program]
    exact (parse_anonymous hanonymous).symm
  · rw [ofSource_tokens, ofSource_tokens]
    obtain ⟨hlength, hzip⟩ :=
      List.forall₂_iff_zip.mp (applied_names hsize hedits hname hsize')
    refine List.forall₂_iff_zip.mpr ⟨hlength, fun hmem => ?_⟩
    have hc := hzip hmem
    have hi := (List.of_mem_zip hmem).1
    exact ⟨hc, applied_resolve? hsize hedits hname htarget hfresh hsize' hi hc⟩

theorem rename_sound_own_value :
    ∃ edits, (ofSource "var x = x;").rename ⟨0, 8⟩ "y" false = .ok (some edits) ∧
      TextEdit.applyAll edits "var x = x;" = "var y = y;" ∧
      Renamed (ofSource "var x = x;") (ofSource "var y = y;") edits "y" := by
  have hsize : byteLength "var x = x;".toList < 0x100000000 := by decide +kernel
  obtain ⟨hfresh, hrename⟩ :
      (∀ t ∈ tokenize "var x = x;", t.kind = .ident → t.literal ≠ "y") ∧
        (ofSource "var x = x;").rename ⟨0, 8⟩ "y" false =
          .ok (some [⟨⟨⟨0, 4⟩, ⟨0, 4⟩⟩, "y"⟩, ⟨⟨⟨0, 8⟩, ⟨0, 8⟩⟩, "y"⟩]) := by decide +kernel
  have hedited : TextEdit.applyAll [⟨⟨⟨0, 4⟩, ⟨0, 4⟩⟩, "y"⟩, ⟨⟨⟨0, 8⟩, ⟨0, 8⟩⟩, "y"⟩]
      "var x = x;" = "var y = y;" := by decide +kernel
  have hsound := rename_sound hsize hfresh hrename (by rw [hedited]; decide +kernel)
  rw [hedited] at hsound
  exact ⟨_, hrename, hedited, hsound⟩

end PayFormula
