import PayFormula.Settings

/-!
# What assignments give

The value that stands at a path of names after some assignments is the last one
that they give it, or the one from before. A path that an assignment passes
through, or ends above, is given something only by what the value holds there;
what it otherwise loses there is not readable.
-/
namespace PayFormula.Settings

section Put

variable {α : Type} {name other : String} {value : α} {fields : List (String × α)}

theorem lookup_cons_eq {field : String × α} :
    (field :: fields).lookup name =
      if name = field.1 then some field.2 else fields.lookup name := by
  rw [List.lookup_cons]
  by_cases h : name = field.1
  · rw [if_pos h, beq_iff_eq.mpr h]
  · rw [if_neg h, beq_eq_false_iff_ne.mpr h]

theorem lookup_put :
    (put name value fields).lookup other =
      if other = name then some value else fields.lookup other := by
  induction fields with
  | nil => exact lookup_cons_eq
  | cons field fields ih =>
    rw [put]
    split
    · rename_i hfield
      rw [lookup_cons_eq, lookup_cons_eq, hfield]
      split <;> rfl
    · rename_i hfield
      rw [lookup_cons_eq, lookup_cons_eq, ih]
      split
      · rename_i hother
        rw [if_neg fun h => hfield (hother.symm.trans h)]
      · rfl

theorem name_mem_put : name ∈ (put name value fields).map Prod.fst := by
  induction fields with
  | nil => simp [put]
  | cons field fields ih =>
    rw [put]
    split
    · exact List.mem_cons_self
    · exact List.mem_cons_of_mem _ ih

theorem mem_put {field : String × α} (h : field ∈ put name value fields) :
    field = (name, value) ∨ field ∈ fields := by
  induction fields with
  | nil => exact .inl (List.mem_singleton.mp h)
  | cons first fields ih =>
    rw [put] at h
    split at h
    · exact (List.mem_cons.mp h).imp_right (List.mem_cons_of_mem _)
    · obtain rfl | h := List.mem_cons.mp h
      · exact .inr List.mem_cons_self
      · exact (ih h).imp_right (List.mem_cons_of_mem _)

theorem names_subset_put : fields.map Prod.fst ⊆ (put name value fields).map Prod.fst := by
  induction fields with
  | nil => exact List.nil_subset _
  | cons first fields ih =>
    rw [put]
    split
    · rename_i hfirst
      rw [List.map_cons, List.map_cons, hfirst]
      exact List.Subset.refl _
    · exact List.cons_subset_cons _ ih

end Put

namespace Value

/-- The value at a path of names. -/
def at? : List String → Value → Option Value
  | [], value => some value
  | name :: path, value => (value.fields.lookup name).bind (at? path)

/-- What a value under a name gives above the name. -/
def under (name : String) (given? : List String → Option Value) : List String → Option Value
  | [] => some (.table [(name, (given? []).getD (.table []))])
  | other :: path => if other = name then given? path else none

mutual

/-- What a value gives at a path in it. Of a table it is what the last of its fields gives
that gives anything there; an empty table gives nothing. -/
def given? : Value → List String → Option Value
  | .table fields, path => givenFields? fields path
  | value, path => if path.isEmpty then some value else none

def givenFields? : List (String × Value) → List String → Option Value
  | [], _ => none
  | (name, value) :: fields, path =>
    (givenFields? fields path).or (under (lowerName name) (given? value) path)

end

/-- Neither a flag nor a level is read from it. -/
def IsBlank (value : Value) : Prop := value = .nothing ∨ value = .table []

/-- How a value is known from one that was given. Of a table it is known that it has a field,
of a list only that it is one. -/
inductive Shows : Value → Value → Prop
  | same (value : Value) : Shows value value
  | table {name : String} {value : Value} {fields : List (String × Value)} :
      name ∈ fields.map Prod.fst → Shows (.table [(name, value)]) (.table fields)
  | array {items items' : List Value} : Shows (.array items) (.array items')

theorem Shows.trans {a b c : Value} (h : Shows a b) (h' : Shows b c) : Shows a c := by
  cases h with
  | same => exact h'
  | array =>
    cases h' with
    | same | array => exact .array
  | table hname =>
    cases h' with
    | same => exact .table hname
    | table hname' =>
      obtain rfl := List.mem_singleton.mp hname
      exact .table hname'

theorem IsBlank.of_shows {a b : Value} (h : a.IsBlank) (h' : Shows a b) : b.IsBlank := by
  obtain rfl | rfl := h
  · cases h'
    exact .inl rfl
  · cases h'
    exact .inr rfl

end Value

open Value

/-- What is there afterwards is blank, or shown by what was expected. -/
def Follows (expected after : Option Value) : Prop :=
  ∀ value ∈ after, value.IsBlank ∨ ∃ shown ∈ expected, shown.Shows value

namespace Follows

variable {a b c : Option Value}

theorem refl (a : Option Value) : Follows a a := fun value h => .inr ⟨value, h, .same value⟩

theorem trans (h : Follows a b) (h' : Follows b c) : Follows a c := by
  intro value hvalue
  obtain hblank | ⟨shown, hshown, hshows⟩ := h' value hvalue
  · exact .inl hblank
  obtain hblank | ⟨first, hfirst, hshows'⟩ := h shown hshown
  · exact .inl (hblank.of_shows hshows)
  · exact .inr ⟨first, hfirst, hshows'.trans hshows⟩

theorem or (given? : Option Value) (h : Follows a b) : Follows (given?.or a) (given?.or b) := by
  cases given? with
  | none => simpa only [Option.none_or] using h
  | some value => simpa only [Option.some_or] using refl _

/-- Something blank may be taken for what is missing. -/
theorem getD {blank : Value} (h : blank.IsBlank) (found : Option Value) (path : List String) :
    Follows (found.bind (at? path)) (at? path (found.getD blank)) := by
  cases found with
  | some value => exact refl _
  | none =>
    intro value hvalue
    cases path with
    | nil =>
      obtain rfl : blank = value := by simpa [at?] using hvalue
      exact .inl h
    | cons name path => obtain rfl | rfl := h <;> simp [at?, fields] at hvalue

end Follows

/-- Whatever a change makes of a value is shown by what is given, or by what was there. -/
def Changes (given? : List String → Option Value) (change : Value → Value) : Prop :=
  ∀ value path, Follows ((given? path).or (at? path value)) (at? path (change value))

variable {given? : List String → Option Value} {change : Value → Value}

/-- A field that is put into a table changes what is under its name and nothing beside it. -/
theorem follows_put {name : String} {root new : Value}
    (h : ∀ path, Follows ((given? path).or ((root.fields.lookup name).bind (at? path)))
      (at? path new)) (path : List String) :
    Follows ((under name given? path).or (at? path root))
      (at? path (.table (put name new root.fields))) := by
  cases path with
  | nil =>
    rintro _ ⟨⟩
    exact .inr ⟨_, rfl, .table name_mem_put⟩
  | cons other path =>
    simp only [under, at?, fields, lookup_put]
    by_cases hother : other = name
    · rw [if_pos hother, if_pos hother, hother]
      exact h path
    · rw [if_neg hother, if_neg hother]
      exact .refl _

theorem changes_field (h : Changes given? change) (name : String) :
    Changes (under name given?)
      (fun value => .table (put name (change (value.get name)) value.fields)) := by
  intro value
  refine follows_put fun path => ?_
  exact ((Follows.getD (.inl rfl) _ path).or _).trans (h _ path)

mutual

theorem merge_changes (name : String) (value : Value) :
    Changes (under name value.given?) (merge name value) := by
  intro root
  cases value with
  | table incoming =>
    have hmerge : merge name (.table incoming) root =
        .table (put name (mergeFields incoming ((root.fields.lookup name).getD (.table [])))
          root.fields) := by
      rw [merge]
      cases root.fields.lookup name <;> rfl
    rw [hmerge]
    refine follows_put fun path => ?_
    -- the fields are merged into the old value, or into a table that starts empty
    exact ((Follows.getD (.inr rfl) _ path).or _).trans (mergeFields_changes incoming _ path)
  | _ =>
    -- the old value goes with its fields, and the new one has none
    refine follows_put fun path => ?_
    cases path with
    | nil => exact .refl _
    | cons => exact fun _ h => nomatch h

theorem mergeFields_changes (incoming : List (String × Value)) :
    Changes (givenFields? incoming) (mergeFields incoming) := by
  intro root path
  match incoming with
  | [] => exact .refl _
  | (name, value) :: incoming =>
    rw [givenFields?, mergeFields, Option.or_assoc]
    exact ((merge_changes (lowerName name) value root path).or _).trans
      (mergeFields_changes incoming _ path)

end

/-- What a list gives, whatever its items are. -/
def givenList? (path : List String) : Option Value :=
  if path.isEmpty then some (.array []) else none

theorem list_changes (change : Value → List Value) :
    Changes givenList? (fun value => .array (change value)) := by
  intro value path
  cases path with
  | nil =>
    rintro _ ⟨⟩
    exact .inr ⟨_, rfl, .array⟩
  | cons => exact fun _ h => nomatch h

/-- What a key gives if what is given at the place it names is known. An item of a list tells
of the list only. -/
def Key.under : Key → (List String → Option Value) → List String → Option Value
  | .field name, given? => Value.under name given?
  | .child parent name, given? => parent.under (Value.under name given?)
  | .item parent _, _ => parent.under givenList?

theorem alter_changes (h : Changes given? change) (key : Key) :
    Changes (key.under given?) (alter change key) := by
  induction key generalizing given? change with
  | field name => exact changes_field h name
  | child parent name ih => exact ih (changes_field h name)
  | item parent number ih => exact ih (list_changes _)

theorem set_changes (key : Key) (value : Value) :
    Changes (key.under value.given?) (fun root => root.set value key) := by
  cases key with
  | field name => exact merge_changes name value
  | child parent name => exact alter_changes (merge_changes name value) parent
  | item parent number => exact alter_changes (list_changes _) parent

/-- A value is assigned to what a key names. -/
def assign (root : Value) (assignments : List (Key × Value)) : Value :=
  assignments.foldl (fun root (key, value) => root.set value key) root

/-- The last value that assignments give at a path. -/
def lastGiven? (path : List String) (assignments : List (Key × Value)) : Option Value :=
  assignments.reverse.findSome? fun (key, value) => key.under value.given? path

theorem lastGiven?_append (path : List String) (first second : List (Key × Value)) :
    lastGiven? path (first ++ second) = (lastGiven? path second).or (lastGiven? path first) := by
  rw [lastGiven?, List.reverse_append, List.findSome?_append]
  rfl

theorem lastGiven?_cons (path : List String) (key : Key) (value : Value)
    (later : List (Key × Value)) :
    lastGiven? path ((key, value) :: later) =
      (lastGiven? path later).or (key.under value.given? path) := by
  rw [lastGiven?, List.reverse_cons, List.findSome?_append, List.findSome?_singleton]
  rfl

/-- The last value given stands at a path in the end, or else the one from before. -/
theorem assign_follows (path : List String) (assignments : List (Key × Value)) (root : Value) :
    Follows ((lastGiven? path assignments).or (at? path root))
      (at? path (assign root assignments)) := by
  induction assignments generalizing root with
  | nil => exact .refl _
  | cons assignment later ih =>
    obtain ⟨key, value⟩ := assignment
    rw [lastGiven?_cons, Option.or_assoc]
    exact ((set_changes key value root path).or _).trans (ih (root.set value key))

end PayFormula.Settings
