import PayFormula.Proofs.Settings.Given

/-!
# What is loaded

The calls on a loader make layers: the sources in the order in which they were
added, then the overrides. A setting that is loaded is read from the last value
that the layers give it, or from its default.
-/
namespace PayFormula.Settings

theorem bind_eq_ok {α β : Type} {x : Except LoadError α} {f : α → Except LoadError β} {b : β} :
    x >>= f = .ok b ↔ ∃ a, x = .ok a ∧ f a = .ok b := by
  cases x with
  | error e => exact ⟨nofun, nofun⟩
  | ok a => exact ⟨fun h => ⟨a, rfl, h⟩, fun ⟨_, h, h'⟩ => Except.ok.inj h ▸ h'⟩

/-- A call on a loader. -/
inductive Call where
  | add (source : Source)
  | set (key : String) (value : Value)
  deriving Repr, Inhabited

/-- The values of a source with their keys, none if it cannot be read. -/
def Source.assignments (environment : List (String × String)) (source : Source) :
    List (Key × Value) :=
  match source.read environment with
  | .ok fields => fields.map fun (name, value) => (Key.ofName name, value)
  | .error _ => []

namespace Call

def apply (loader : Loader) : Call → Except LoadError Loader
  | .add source => .ok (loader.add source)
  | .set key value => loader.set key value

def isSet : Call → Bool
  | .set _ _ => true
  | .add _ => false

def source? : Call → Option Source
  | .add source => some source
  | .set _ _ => none

def assignments (environment : List (String × String)) : Call → List (Key × Value)
  | .add source => source.assignments environment
  | .set key value => ((Key.ofString? key).map fun key => (key, value)).toList

end Call

/-- What is loaded after some calls on a new loader. -/
def loadAfter (environment : List (String × String)) (calls : List Call) :
    Except LoadError Settings := do
  let loader ← calls.foldlM Call.apply { Loader.empty with environment }
  loader.load

/-- The calls in the order of the layers that they make. -/
def layered (calls : List Call) : List Call :=
  calls.filter (!·.isSet) ++ calls.filter (·.isSet)

section Layers

variable {environment : List (String × String)}

theorem foldl_overlay {sources : List Source} {layers : List (List (String × Value))}
    (h : sources.mapM (Source.read environment) = .ok layers) (root : Value) :
    layers.foldl Loader.overlay root =
      assign root (sources.flatMap (Source.assignments environment)) := by
  induction sources generalizing layers root with
  | nil =>
    obtain rfl : [] = layers := Except.ok.inj h
    rfl
  | cons source sources ih =>
    rw [List.mapM_cons] at h
    obtain ⟨fields, hfields, h⟩ := bind_eq_ok.mp h
    obtain ⟨layers, hlayers, h⟩ := bind_eq_ok.mp h
    obtain rfl := Except.ok.inj h
    rw [List.foldl_cons, ih hlayers, List.flatMap_cons, assign, assign, List.foldl_append,
      Source.assignments, hfields, List.foldl_map]
    rfl

theorem foldlM_apply {loader result : Loader} {calls : List Call}
    (h : calls.foldlM Call.apply loader = .ok result) :
    result.environment = loader.environment ∧
      result.sources = loader.sources ++ calls.filterMap Call.source? ∧
      result.overrides = loader.overrides ++
        (calls.filter (·.isSet)).flatMap (Call.assignments loader.environment) := by
  induction calls generalizing loader with
  | nil =>
    obtain rfl : loader = result := Except.ok.inj h
    simp
  | cons call calls ih =>
    rw [List.foldlM_cons] at h
    obtain ⟨next, hnext, h⟩ := bind_eq_ok.mp h
    obtain ⟨henvironment, hsources, hoverrides⟩ := ih h
    cases call with
    | add source =>
      obtain rfl : loader.add source = next := Except.ok.inj hnext
      simp [henvironment, hsources, hoverrides, Loader.add, Call.source?, Call.isSet]
    | set key value =>
      rw [Call.apply, Loader.set] at hnext
      split at hnext
      · rename_i found hkey
        obtain rfl := Except.ok.inj hnext
        simp [henvironment, hsources, hoverrides, List.filterMap_cons, Call.source?, Call.isSet,
          Call.assignments, hkey]
      · exact nomatch hnext

theorem flatMap_sources (calls : List Call) :
    (calls.filterMap Call.source?).flatMap (Source.assignments environment) =
      (calls.filter (!·.isSet)).flatMap (Call.assignments environment) := by
  induction calls with
  | nil => rfl
  | cons call calls ih =>
    cases call with
    | add source => simpa [Call.source?, Call.isSet, Call.assignments] using ih
    | set => simpa [List.filterMap_cons, Call.source?, Call.isSet] using ih

/-- What is loaded is read from the defaults under all that the calls assign. -/
theorem ofValue_assign {calls : List Call} {s : Settings}
    (h : loadAfter environment calls = .ok s) :
    ofValue (assign defaults.toValue
      ((layered calls).flatMap (Call.assignments environment))) = .ok s := by
  obtain ⟨loader, hloader, h⟩ := bind_eq_ok.mp h
  obtain ⟨root, hroot, h⟩ := bind_eq_ok.mp h
  obtain ⟨layers, hlayers, hroot⟩ := bind_eq_ok.mp hroot
  obtain ⟨henvironment, hsources, hoverrides⟩ := foldlM_apply hloader
  obtain rfl := Except.ok.inj hroot
  rw [henvironment] at hlayers
  rw [foldl_overlay hlayers, hsources, hoverrides] at h
  rw [layered, List.flatMap_append, assign, List.foldl_append, ← flatMap_sources]
  exact h

end Layers

inductive Setting where
  | publishDiagnostics
  | offersVariables
  | offersKeywords
  | level
  deriving DecidableEq, Repr, Inhabited

namespace Setting

/-- The table that a setting is a field of. -/
def table : Setting → String
  | .publishDiagnostics => "server"
  | .offersVariables | .offersKeywords => "completion"
  | .level => "logging"

def field : Setting → String
  | .publishDiagnostics => "publish_diagnostics"
  | .offersVariables => "variables"
  | .offersKeywords => "keywords"
  | .level => "level"

def path (S : Setting) : List String := [S.table, S.field]

def default (S : Setting) : Value := (defaults.toValue.at? S.path).getD .nothing

/-- In some settings, a setting is what a value is read as. -/
def Reads (s : Settings) (value : Value) : Setting → Prop
  | .publishDiagnostics => flagOf value = .ok s.publishDiagnostics
  | .offersVariables => flagOf value = .ok s.offersVariables
  | .offersKeywords => flagOf value = .ok s.offersKeywords
  | .level => levelOf value = .ok s.level

end Setting

def Value.isList : Value → Bool
  | .array _ => true
  | _ => false

section Read

variable {value shown : Value} {S : Setting} {s : Settings}

theorem flagOf_shown {flag : Bool} (hshows : shown.Shows value) (h : flagOf value = .ok flag) :
    flagOf shown = .ok flag := by
  cases hshows with
  | same => exact h
  | table | array => exact nomatch h

theorem levelOf_shown {level : LogLevel} (hshows : shown.Shows value)
    (h : levelOf value = .ok level) : levelOf shown = .ok level := by
  cases hshows with
  | same => exact h
  | array => exact nomatch h
  | table hname =>
    rename_i name inner fields
    match fields with
    | [field] =>
      obtain rfl : name = field.1 := List.mem_singleton.mp hname
      exact h
    | [] => exact nomatch hname
    | _ :: _ :: _ => exact nomatch h

theorem Setting.Reads.of_shows (hshows : shown.Shows value) (h : S.Reads s value) :
    S.Reads s shown := by
  cases S with
  | level => exact levelOf_shown hshows h
  | _ => exact flagOf_shown hshows h

theorem Setting.Reads.not_isBlank (h : S.Reads s value) : ¬value.IsBlank := by
  rintro (rfl | rfl) <;> cases S <;> exact nomatch h

/-- What is read of a setting in the end is read of the value given, or of the default. -/
theorem Follows.reads {given? after : Option Value}
    (h : Follows (given?.or (defaults.toValue.at? S.path)) after) (hvalue : value ∈ after)
    (hreads : S.Reads s value) : S.Reads s (given?.getD S.default) := by
  obtain hblank | ⟨shown, hshown, hshows⟩ := h value hvalue
  · exact absurd hblank hreads.not_isBlank
  have hgetD : given?.getD S.default = shown := by
    cases given? with
    | some given => exact Option.some.inj hshown
    | none =>
      rw [Option.none_or] at hshown
      rw [Option.getD_none, Setting.default, hshown, Option.getD_some]
  exact hgetD ▸ hreads.of_shows hshows

theorem Value.Shows.isList (h : shown.Shows value) : value.isList = shown.isList := by
  cases h <;> rfl

theorem Follows.isList {expected after : Option Value} (h : Follows expected after)
    (hexpected : ∀ value ∈ expected, value.isList = false) :
    ∀ value ∈ after, value.isList = false := by
  intro value hvalue
  obtain (rfl | rfl) | ⟨shown, hshown, hshows⟩ := h value hvalue
  · rfl
  · rfl
  · exact hshows.isList.trans (hexpected shown hshown)

theorem isList_expected {given? : Option Value} (h : given?.any Value.isList = false) :
    ∀ value ∈ given?.or (defaults.toValue.at? [S.table]), value.isList = false := by
  intro value hvalue
  cases given? with
  | some given =>
    obtain rfl : given = value := Option.some.inj hvalue
    exact h
  | none => cases S <;> cases hvalue <;> rfl

theorem required_eq_ok {α : Type} {found : Option α} {a : α} :
    required found = .ok a ↔ found = some a := by
  cases found <;> simp [required]

theorem flag_of_mapM {found : Option Value} {flag : Bool}
    (h : found.mapM flagOf = .ok (some flag)) :
    ∃ value, found = some value ∧ flagOf value = .ok flag := by
  cases found with
  | none => exact nomatch h
  | some value =>
    obtain ⟨flag, hflag, h⟩ := bind_eq_ok.mp h
    obtain rfl := Option.some.inj (Except.ok.inj h)
    exact ⟨value, rfl, hflag⟩

/-- A field of what is no list is found by its name. -/
theorem lookup_of_fieldOf {root : Value} {place : Nat} {name : String}
    (hlist : root.isList = false) (h : fieldOf root place name = .ok value) :
    root.fields.lookup name = some value := by
  cases root with
  | table fields => exact required_eq_ok.mp h
  | array items => exact nomatch hlist
  | nothing | flag | text => exact nomatch h

theorem completionOf_fields {root : Value} {ofVariables ofKeywords : Bool}
    (hlist : root.isList = false) (h : completionOf root = .ok (ofVariables, ofKeywords)) :
    (∃ value, root.fields.lookup "variables" = some value ∧ flagOf value = .ok ofVariables) ∧
      ∃ value, root.fields.lookup "keywords" = some value ∧ flagOf value = .ok ofKeywords := by
  cases root with
  | table fields =>
    obtain ⟨variables?, hvariables, h⟩ := bind_eq_ok.mp h
    obtain ⟨keywords?, hkeywords, h⟩ := bind_eq_ok.mp h
    obtain ⟨_, h₁, h⟩ := bind_eq_ok.mp h
    obtain ⟨_, h₂, h⟩ := bind_eq_ok.mp h
    obtain ⟨rfl, rfl⟩ := Prod.mk.inj (Except.ok.inj h)
    rw [required_eq_ok.mp h₁] at hvariables
    rw [required_eq_ok.mp h₂] at hkeywords
    exact ⟨flag_of_mapM hvariables, flag_of_mapM hkeywords⟩
  | array items => exact nomatch hlist
  | nothing | flag | text => exact nomatch h

theorem reads_at {root : Value} (h : ofValue root = .ok s) (hroot : root.isList = false)
    (htable : ∀ value ∈ root.at? [S.table], value.isList = false) :
    ∃ value ∈ root.at? S.path, S.Reads s value := by
  obtain ⟨server, hserver, h⟩ := bind_eq_ok.mp h
  obtain ⟨completion, hcompletion, h⟩ := bind_eq_ok.mp h
  obtain ⟨logging, hlogging, h⟩ := bind_eq_ok.mp h
  obtain ⟨ofServer, hofServer, h⟩ := bind_eq_ok.mp h
  obtain ⟨publishDiagnostics, hpublish, h⟩ := bind_eq_ok.mp h
  obtain ⟨⟨offersVariables, offersKeywords⟩, hoffers, h⟩ := bind_eq_ok.mp h
  obtain ⟨ofLogging, hofLogging, h⟩ := bind_eq_ok.mp h
  obtain ⟨level, hlevel, h⟩ := bind_eq_ok.mp h
  obtain rfl := Except.ok.inj h
  have hserver := lookup_of_fieldOf hroot hserver
  have hcompletion := lookup_of_fieldOf hroot hcompletion
  have hlogging := lookup_of_fieldOf hroot hlogging
  simp only [Value.at?, Setting.path] at htable ⊢
  cases S with
  | publishDiagnostics =>
    simp only [Setting.table, Setting.field, hserver, Option.bind_some] at htable ⊢
    rw [lookup_of_fieldOf (htable _ rfl) hofServer]
    exact ⟨_, rfl, hpublish⟩
  | level =>
    simp only [Setting.table, Setting.field, hlogging, Option.bind_some] at htable ⊢
    rw [lookup_of_fieldOf (htable _ rfl) hofLogging]
    exact ⟨_, rfl, hlevel⟩
  | offersVariables =>
    simp only [Setting.table, Setting.field, hcompletion, Option.bind_some] at htable ⊢
    obtain ⟨⟨value, hvalue, hflag⟩, -⟩ := completionOf_fields (htable _ rfl) hoffers
    rw [hvalue]
    exact ⟨_, rfl, hflag⟩
  | offersKeywords =>
    simp only [Setting.table, Setting.field, hcompletion, Option.bind_some] at htable ⊢
    obtain ⟨-, value, hvalue, hflag⟩ := completionOf_fields (htable _ rfl) hoffers
    rw [hvalue]
    exact ⟨_, rfl, hflag⟩

end Read

theorem alter_isList (change : Value → Value) (key : Key) (root : Value) :
    (root.alter change key).isList = false := by
  induction key generalizing change with
  | field => rfl
  | child parent name ih | item parent number ih => exact ih _

theorem set_isList (root value : Value) (key : Key) : (root.set value key).isList = false := by
  cases key with
  | field => cases value <;> rfl
  | child parent name | item parent number => exact alter_isList _ parent root

theorem assign_isList {root : Value} (h : root.isList = false) (assignments : List (Key × Value)) :
    (assign root assignments).isList = false := by
  induction assignments generalizing root with
  | nil => exact h
  | cons assignment later ih => exact ih (set_isList ..)

/-- The last value that calls give at a path. -/
def givenBy? (environment : List (String × String)) (calls : List Call) (path : List String) :
    Option Value :=
  lastGiven? path (calls.flatMap (Call.assignments environment))

/-- Whether the last that is given in the place of the setting's table is a list. -/
def Setting.isListed (S : Setting) (environment : List (String × String)) (calls : List Call) :
    Bool :=
  (givenBy? environment (layered calls) [S.table]).any Value.isList

/-- A setting is read from the last value that the layers give it, or from its default. -/
theorem reads_layered {environment : List (String × String)} {calls : List Call} {s : Settings}
    {S : Setting} (hload : loadAfter environment calls = .ok s)
    (hlist : S.isListed environment calls = false) :
    S.Reads s ((givenBy? environment (layered calls) S.path).getD S.default) := by
  have hvalue := ofValue_assign hload
  generalize hroot : assign defaults.toValue _ = root at hvalue
  have hfollows (path : List String) : Follows ((givenBy? environment (layered calls) path).or
      (defaults.toValue.at? path)) (root.at? path) := hroot ▸ assign_follows path _ _
  obtain ⟨value, hat, hreads⟩ := reads_at hvalue (hroot ▸ assign_isList rfl _)
    ((hfollows [S.table]).isList (isList_expected hlist))
  exact (hfollows S.path).reads hat hreads

end PayFormula.Settings
