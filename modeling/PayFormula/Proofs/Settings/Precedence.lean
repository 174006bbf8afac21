import Mathlib.Data.List.DropRight
import PayFormula.Proofs.Settings.Loaded

/-!
# Which layer a setting comes from

The environment is meant to be over every file, whatever the order of the calls.
But files and the environment are layers in the order in which they were added, so
a file that is added after the environment is over the variables.
-/
namespace PayFormula.Settings

namespace Call

def isEnvironment : Call → Bool
  | .add .environment => true
  | _ => false

def isFile : Call → Bool
  | .add (.file _) | .add (.missingFile _) => true
  | _ => false

end Call

/-- The files that are added after the last use of the environment. -/
def laterFiles (calls : List Call) : List Call :=
  (calls.rtakeWhile (!·.isEnvironment)).filter (·.isFile)

namespace Setting

def key (S : Setting) : String := S.table ++ "." ++ S.field

/-- The name of the variable of a setting, but for the case of its letters. -/
def variableName : Setting → String
  | .publishDiagnostics => "WFLANG_SERVER__PUBLISH_DIAGNOSTICS"
  | .offersVariables => "WFLANG_COMPLETION__VARIABLES"
  | .offersKeywords => "WFLANG_COMPLETION__KEYWORDS"
  | .level => "WFLANG_LOGGING__LEVEL"

variable (S : Setting) (environment : List (String × String)) (calls : List Call)

/-- The value that a setting is meant to have: what is set last, else what the environment gives
if it is used, else what the last file gives that gives anything, else the default. -/
def documented : Value :=
  ((givenBy? environment (calls.filter (·.isSet)) S.path).or
    ((givenBy? environment (calls.filter (·.isEnvironment)) S.path).or
      (givenBy? environment (calls.filter (·.isFile)) S.path))).getD S.default

/-- What files put over the value of a variable. -/
def overtaking? : Option Value :=
  if (givenBy? environment (calls.filter (·.isSet)) S.path).isNone ∧
      (givenBy? environment (calls.filter (·.isEnvironment)) S.path).isSome then
    givenBy? environment (laterFiles calls) S.path
  else none

end Setting

variable {environment : List (String × String)} {calls : List Call} {path : List String}

theorem givenBy?_append (first second : List Call) :
    givenBy? environment (first ++ second) path =
      (givenBy? environment second path).or (givenBy? environment first path) := by
  rw [givenBy?, List.flatMap_append, lastGiven?_append]
  rfl

theorem givenBy?_filter_concat (kind : Call → Bool) (calls : List Call) (call : Call) :
    givenBy? environment ((calls ++ [call]).filter kind) path =
      (if kind call then givenBy? environment [call] path else none).or
        (givenBy? environment (calls.filter kind) path) := by
  rw [List.filter_append, givenBy?_append, List.filter_singleton]
  cases kind call <;> rfl

/-- The environment gives the same however often it is used. -/
theorem givenBy?_environment (calls : List Call) :
    givenBy? environment (calls.filter (·.isEnvironment)) path =
      if calls.any (·.isEnvironment) then givenBy? environment [.add .environment] path
      else none := by
  induction calls with
  | nil => rfl
  | cons call calls ih =>
    rw [List.filter_cons, List.any_cons]
    cases hcall : call.isEnvironment with
    | false => exact ih
    | true =>
      obtain rfl : call = .add .environment := by
        match call with
        | .add .environment => rfl
      rw [if_pos rfl, Bool.true_or, if_pos rfl, ← List.singleton_append, givenBy?_append, ih]
      split
      · exact Option.or_self
      · exact Option.none_or

/-- The sources give what the environment gives, or else what the files give, unless a file that
is added after the environment gives something as well. -/
theorem givenBy?_sources (calls : List Call) :
    givenBy? environment (calls.filter (!·.isSet)) path =
      ((givenBy? environment (calls.filter (·.isEnvironment)) path).bind fun _ =>
        givenBy? environment (laterFiles calls) path).or
      ((givenBy? environment (calls.filter (·.isEnvironment)) path).or
        (givenBy? environment (calls.filter (·.isFile)) path)) := by
  -- from the back, where a use of the environment is the last one
  induction calls using List.reverseRecOn with
  | nil => rfl
  | append_singleton calls call ih =>
    rw [laterFiles] at ih ⊢
    match call with
    | .set _ _ =>
      rw [List.rtakeWhile_concat_pos _ _ _ rfl]
      simp only [givenBy?_filter_concat, ih]
      rfl
    | .add .environment =>
      rw [List.rtakeWhile_concat_neg _ _ _ (by decide)]
      simp only [givenBy?_filter_concat, ih]
      cases hgiven : givenBy? environment [.add .environment] path with
      | some value => rfl
      | none =>
        simp only [givenBy?_environment, hgiven, ite_self]
        rfl
    | .add (.file _) | .add (.missingFile _) =>
      rw [List.rtakeWhile_concat_pos _ _ _ rfl]
      simp only [givenBy?_filter_concat, ih]
      cases givenBy? environment (calls.filter (·.isEnvironment)) path with
      | none => rfl
      | some value => exact Option.or_assoc.symm

theorem layered_eq (S : Setting) :
    (givenBy? environment (layered calls) S.path).getD S.default =
      (S.overtaking? environment calls).getD (S.documented environment calls) := by
  rw [layered, givenBy?_append, givenBy?_sources, Setting.overtaking?, Setting.documented]
  cases givenBy? environment (calls.filter (·.isSet)) S.path with
  | some value => rfl
  | none =>
    cases givenBy? environment (calls.filter (·.isEnvironment)) S.path with
    | none => rfl
    | some value => cases givenBy? environment (laterFiles calls) S.path <;> rfl

section Variables

variable {name text key : String} {value : Value}

theorem ofEnvironment_concat (environment : List (String × String)) (name text : String) :
    ofEnvironment (environment ++ [(name, text)]) =
      match keyOfVariable? name with
      | some key => put key (valueOfVariable text) (ofEnvironment environment)
      | none => ofEnvironment environment := by
  rw [ofEnvironment, List.foldl_append]
  rfl

/-- What the environment holds under a key comes from a variable of this key. -/
theorem exists_of_mem_ofEnvironment (h : (key, value) ∈ ofEnvironment environment) :
    ∃ name text, (name, text) ∈ environment ∧ keyOfVariable? name = some key ∧
      valueOfVariable text = value := by
  induction environment using List.reverseRecOn with
  | nil => exact nomatch h
  | append_singleton earlier last ih =>
    have hearlier (h : (key, value) ∈ ofEnvironment earlier) : ∃ name text,
        (name, text) ∈ earlier ++ [last] ∧ keyOfVariable? name = some key ∧
          valueOfVariable text = value := by
      obtain ⟨name, text, hmem, hkey⟩ := ih h
      exact ⟨name, text, List.mem_append_left _ hmem, hkey⟩
    rw [ofEnvironment_concat] at h
    split at h
    · rename_i found hfound
      obtain hlast | h := mem_put h
      · obtain ⟨rfl, rfl⟩ := Prod.mk.inj hlast
        exact ⟨_, _, List.mem_append_right _ List.mem_cons_self, hfound, rfl⟩
      · exact hearlier h
    · exact hearlier h

theorem key_mem_ofEnvironment (hmem : (name, text) ∈ environment)
    (hkey : keyOfVariable? name = some key) :
    key ∈ (ofEnvironment environment).map Prod.fst := by
  induction environment using List.reverseRecOn with
  | nil => exact nomatch hmem
  | append_singleton earlier last ih =>
    rw [ofEnvironment_concat]
    obtain hmem | hmem := List.mem_append.mp hmem
    · split
      · exact names_subset_put (ih hmem)
      · exact ih hmem
    · obtain rfl := List.mem_singleton.mp hmem
      rw [hkey]
      exact name_mem_put

theorem givenBy?_used (environment : List (String × String)) (path : List String) :
    givenBy? environment [.add .environment] path =
      (ofEnvironment environment).reverse.findSome? fun field =>
        (Key.ofName field.1).under field.2.given? path := by
  rw [givenBy?, List.flatMap_singleton, lastGiven?]
  simp only [Call.assignments, Source.assignments, Source.read]
  rw [← List.map_reverse, List.findSome?_map]
  rfl

theorem givenBy?_single (hkey : keyOfVariable? name = some key) :
    givenBy? [(name, text)] [.add .environment] path =
      (Key.ofName key).under (valueOfVariable text).given? path := by
  have hsingle : ofEnvironment [(name, text)] = [(key, valueOfVariable text)] := by
    rw [← List.nil_append [_], ofEnvironment_concat, hkey]
    rfl
  rw [givenBy?_used, hsingle]
  exact List.findSome?_singleton

/-- What the environment gives is given by one of its variables alone. -/
theorem exists_of_givenBy? (h : givenBy? environment [.add .environment] path = some value) :
    ∃ other ∈ environment, givenBy? [other] [.add .environment] path = some value := by
  rw [givenBy?_used] at h
  obtain ⟨⟨key, given⟩, hgiven, hvalue⟩ := List.exists_of_findSome?_eq_some h
  obtain ⟨name, text, hmem, hkey, rfl⟩ := exists_of_mem_ofEnvironment (List.mem_reverse.mp hgiven)
  exact ⟨(name, text), hmem, (givenBy?_single hkey).trans hvalue⟩

theorem keyOfVariable?_variableName {S : Setting} (h : lowerName name = lowerName S.variableName) :
    keyOfVariable? name = some S.key := by
  rw [keyOfVariable?, h]
  cases S <;> decide +kernel

theorem under_key (S : Setting) (text : String) :
    (Key.ofName S.key).under (valueOfVariable text).given? S.path =
      some (valueOfVariable text) := by
  have hkey : Key.ofName S.key = .child (.field S.table) S.field := by cases S <;> decide +kernel
  have hgiven : (valueOfVariable text).given? [] = some (valueOfVariable text) := by
    rw [valueOfVariable]
    split
    · rfl
    · rfl
    · split <;> rfl
  rw [hkey, ← hgiven]
  cases S <;> rfl

/-- The environment gives a setting the value of its variable, if no other variable gives it one. -/
theorem givenBy?_variable {S : Setting} (hname : lowerName name = lowerName S.variableName)
    (hmem : (name, text) ∈ environment)
    (honly : ∀ other ∈ environment, other ≠ (name, text) →
      givenBy? [other] [.add .environment] S.path = none) :
    givenBy? environment [.add .environment] S.path = some (valueOfVariable text) := by
  have hkey := keyOfVariable?_variableName hname
  cases hfound : givenBy? environment [.add .environment] S.path with
  | some value =>
    obtain ⟨other, hother, hvalue⟩ := exists_of_givenBy? hfound
    by_cases h : other = (name, text)
    · rw [← hvalue, h, givenBy?_single hkey, under_key]
    · exact absurd (hvalue.symm.trans (honly other hother h)) (Option.some_ne_none _)
  | none =>
    obtain ⟨⟨_, value⟩, hvalue, rfl⟩ := List.mem_map.mp (key_mem_ofEnvironment hmem hkey)
    obtain ⟨_, other, _, _, rfl⟩ := exists_of_mem_ofEnvironment hvalue
    rw [givenBy?_used] at hfound
    have hnone := List.findSome?_eq_none_iff.mp hfound _ (List.mem_reverse.mpr hvalue)
    exact absurd ((under_key S other).symm.trans hnone) (Option.some_ne_none _)

/-- If the environment is used, a setting that is not set is meant to have the value of its
variable. -/
theorem documented_variable {S : Setting} (hname : lowerName name = lowerName S.variableName)
    (hmem : (name, text) ∈ environment)
    (honly : ∀ other ∈ environment, other ≠ (name, text) →
      givenBy? [other] [.add .environment] S.path = none)
    (hused : calls.any (·.isEnvironment))
    (hset : givenBy? environment (calls.filter (·.isSet)) S.path = none) :
    S.documented environment calls = valueOfVariable text := by
  rw [Setting.documented, hset, givenBy?_environment, if_pos hused,
    givenBy?_variable hname hmem honly]
  rfl

end Variables

/-- Each setting that is loaded has the documented value, but for the one that a file added after
the environment puts over the value of a variable. If the setting is not set and the environment is
used, the documented value is that of the variable with its name. -/
theorem load_precedence {s : Settings} {S : Setting} (hload : loadAfter environment calls = .ok s)
    (hlist : S.isListed environment calls = false) :
    S.Reads s ((S.overtaking? environment calls).getD (S.documented environment calls)) ∧
      ∀ name text, lowerName name = lowerName S.variableName → (name, text) ∈ environment →
        (∀ other ∈ environment, other ≠ (name, text) →
          givenBy? [other] [.add .environment] S.path = none) →
        calls.any (·.isEnvironment) → givenBy? environment (calls.filter (·.isSet)) S.path = none →
        S.documented environment calls = valueOfVariable text := by
  constructor
  · rw [← layered_eq S]
    exact reads_layered hload hlist
  · exact fun _ _ hname hmem honly hused hset => documented_variable hname hmem honly hused hset

/-- Settings from a file, from a file over a variable, from what is set and from a variable. -/
theorem load_precedence_layers :
    let environment := [("WFLANG_COMPLETION__VARIABLES", "0"), ("wflang_logging__level", "Error")]
    let calls := [.add (.file "server.publish_diagnostics = false\n[logging]\nlevel = \"info\""),
      .add .environment, .add (.file "completion = \x7bvariables = true\x7d"),
      .set "completion.keywords" (.text "on")]
    let s : Settings := ⟨false, true, true, .error⟩
    loadAfter environment calls = .ok s ∧ (∀ S : Setting, S.isListed environment calls = false ∧
      S.Reads s ((S.overtaking? environment calls).getD (S.documented environment calls))) ∧
      Setting.level.documented environment calls = .text "Error" := by
  intro environment calls s
  -- the level is that of its variable, for the other variable is of another setting
  obtain ⟨hload, hlists, honly, hset⟩ : loadAfter environment calls = .ok s ∧
      (∀ S ∈ [.publishDiagnostics, .offersVariables, .offersKeywords, .level],
        Setting.isListed S environment calls = false) ∧
      (∀ other ∈ environment, other ≠ ("wflang_logging__level", "Error") →
        givenBy? [other] [.add .environment] Setting.level.path = none) ∧
      givenBy? environment (calls.filter (·.isSet)) Setting.level.path = none := by decide +kernel
  have hlist (S : Setting) : S.isListed environment calls = false := hlists S (by cases S <;> simp)
  refine ⟨hload, fun S => ⟨hlist S, (load_precedence hload (hlist S)).1⟩, ?_⟩
  have htext : valueOfVariable "Error" = .text "Error" := by
    have hlower : Text.lowercase "Error" = "error" := by decide +kernel
    have hflag : Numeral.flag? "Error".toList = none := by decide +kernel
    rw [valueOfVariable, hlower, hflag]
    simp
  rw [← htext]
  exact (load_precedence hload (hlist .level)).2 _ _ (by decide +kernel) (by simp [environment])
    honly (by decide) hset

/-- The level of a file that is added after the environment is over the level of the variable. -/
theorem load_overtaken_by_file :
    let environment := [("WFLANG_LOGGING__LEVEL", "error")]
    let calls := [.add .environment, .add (.file "[logging]\nlevel = \"info\"")]
    ∃ s, loadAfter environment calls = .ok s ∧ Setting.level.isListed environment calls = false ∧
      ¬Setting.level.Reads s (Setting.level.documented environment calls) := by
  refine ⟨⟨true, true, false, .info⟩, by decide +kernel, by decide +kernel, ?_⟩
  simp only [Setting.Reads]
  decide +kernel

end PayFormula.Settings
