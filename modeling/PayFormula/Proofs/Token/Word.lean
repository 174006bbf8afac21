import PayFormula.Token.Word

/-!
# Reserved words

A word is an identifier just if it is not reserved. Keywords and the names of
functions begin with few of the letters, so a word that begins with another
character is known to be an identifier without a look at the catalog.
-/
namespace PayFormula

theorem Text.lowercase_lowercase (text : String) : lowercase (lowercase text) = lowercase text := by
  have hchar (c : Char) : c.toLower.toLower = c.toLower := by
    by_cases h : c.val ≥ 'A'.val ∧ c.val ≤ 'Z'.val
    · have hletters : ∀ n < 91, 65 ≤ n →
          (Char.ofNat n).toLower.toLower = (Char.ofNat n).toLower := by decide
      have hbounds : 65 ≤ c.toNat ∧ c.toNat ≤ 90 := by
        simpa [UInt32.le_iff_toNat_le] using h
      have hc := hletters c.toNat (by omega) hbounds.1
      rwa [Char.ofNat_toNat] at hc
    · have hc : c.toLower = c := dif_neg h
      rw [hc, hc]
  have hcomp : Char.toLower ∘ Char.toLower = Char.toLower := funext hchar
  rw [lowercase, toList_lowercase, List.map_map, hcomp, lowercase]

namespace Catalog

/-- The letters that the names of functions begin with. -/
def initials : List Char := ['a', 'b', 'c', 'e', 'f', 'g', 'i', 'l', 'm', 'p', 'r', 's', 't']

theorem exists_initial :
    ∀ f ∈ functions, ∃ c rest, f.displayName = String.ofList (c :: rest) ∧ c ∈ initials := by
  unfold functions
  -- a literal is its characters by definition; to compute them from its bytes takes far longer
  repeat refine List.forall_mem_cons.mpr ⟨⟨_, _, rfl, by decide⟩, ?_⟩
  exact List.forall_mem_nil _

theorem of_lookup? {name : String} {f : Function} (h : lookup? name = some f) :
    f ∈ functions ∧ f.key = Text.lowercase name := by
  obtain ⟨before, after, hentries, -⟩ := List.lookup_eq_some_iff.mp h
  have hmem : (Text.lowercase name, f) ∈ entries := by
    rw [hentries]
    simp
  obtain ⟨g, hg, heq⟩ := List.mem_map.mp hmem
  obtain ⟨hkey, rfl⟩ := Prod.mk.inj heq
  exact ⟨hg, hkey⟩

theorem lookup?_lowercase (name : String) : lookup? (Text.lowercase name) = lookup? name := by
  rw [lookup?, lookup?, Text.lowercase_lowercase]

end Catalog

namespace Word

variable {word : String}

theorem of_keyword? {kind : TokenKind} (h : keyword? word = some kind) :
    (Text.lowercase word, kind) ∈ keywords := by
  obtain ⟨before, after, heq, -⟩ := List.lookup_eq_some_iff.mp h
  rw [heq]
  simp

/-- The words that no variable can have as its name, in small letters. -/
def reserved : List String := keywords.map (·.1) ++ Catalog.functions.map (·.key)

theorem isReserved_iff : isReserved word ↔ Text.lowercase word ∈ reserved := by
  have hlookup {α : Type} (entries : List (String × α)) (key : String) :
      (entries.lookup key).isSome ↔ key ∈ entries.map (·.1) := by
    simp [List.lookup_isSome_iff]
  rw [isReserved, Bool.or_eq_true, keyword?, hlookup, Catalog.isBuiltin, Catalog.lookup?, hlookup,
    reserved, List.mem_append, Catalog.entries, List.map_map]
  rfl

theorem mem_of_keyword? {kind : TokenKind} (h : keyword? word = some kind) :
    kind ∈ keywords.map (·.2) := List.mem_map_of_mem (of_keyword? h)

/-- A word is a keyword, a builtin or an identifier. -/
theorem classify_mem (word : String) :
    classify word ∈ .builtin :: .ident :: keywords.map (·.2) := by
  unfold classify
  split
  · rename_i kind h
    simp [mem_of_keyword? h]
  · split <;> simp

theorem classify_ne {kind : TokenKind} (h : kind ∉ .builtin :: .ident :: keywords.map (·.2))
    (word : String) : classify word ≠ kind := by
  rintro rfl
  exact h (classify_mem word)

theorem classify_ne_string (word : String) : classify word ≠ .string :=
  classify_ne (by decide) word

theorem classify_eq_ident_iff : classify word = .ident ↔ isReserved word = false := by
  unfold classify isReserved
  cases hk : keyword? word with
  | none => cases Catalog.isBuiltin word <;> simp
  | some kind =>
    refine iff_of_false ?_ (by simp)
    rintro rfl
    exact absurd (mem_of_keyword? hk) (by decide)

theorem isBuiltin_of_classify (h : classify word = .builtin) : Catalog.isBuiltin word := by
  unfold classify at h
  split at h
  · rename_i kind hkind
    have hmem := mem_of_keyword? hkind
    rw [h] at hmem
    exact absurd hmem (by decide)
  · split at h
    · assumption
    · cases h

/-- The letters that reserved words begin with. -/
def initials : List Char := ['d', 'n', 'o', 'v', 'w'] ++ Catalog.initials

theorem exists_keyword_initial :
    ∀ entry ∈ keywords, ∃ c rest, entry.1 = String.ofList (c :: rest) ∧ c ∈ initials := by
  unfold keywords
  repeat refine List.forall_mem_cons.mpr ⟨⟨_, _, rfl, by decide⟩, ?_⟩
  exact List.forall_mem_nil _

theorem exists_initial (h : isReserved word) :
    ∃ c ∈ word.toList.head?, c.toLower ∈ initials := by
  obtain ⟨c, hhead, hc⟩ : ∃ c ∈ (Text.lowercase word).toList.head?, c ∈ initials := by
    rcases Bool.or_eq_true_iff.mp h with hkeyword | hbuiltin
    · obtain ⟨kind, hkind⟩ := Option.isSome_iff_exists.mp hkeyword
      obtain ⟨c, rest, heq, hc⟩ := exists_keyword_initial _ (of_keyword? hkind)
      refine ⟨c, ?_, hc⟩
      rw [show Text.lowercase word = _ from heq, String.toList_ofList]
      rfl
    · obtain ⟨f, hf⟩ := Option.isSome_iff_exists.mp hbuiltin
      obtain ⟨hmem, hkey⟩ := Catalog.of_lookup? hf
      obtain ⟨c, rest, heq, hc⟩ := Catalog.exists_initial f hmem
      have hlower : ∀ c ∈ Catalog.initials, c.toLower = c := by simp [Catalog.initials]
      refine ⟨c, ?_, List.mem_append_right _ hc⟩
      rw [← hkey, Function.key, Text.toList_lowercase, heq, String.toList_ofList]
      exact congrArg some (hlower c hc)
  rw [Text.toList_lowercase, List.head?_map] at hhead
  obtain ⟨d, hd, rfl⟩ := Option.map_eq_some_iff.mp hhead
  exact ⟨d, hd, hc⟩

/-- What begins with another character is no reserved word. -/
theorem isReserved_ofList {c : Char} (h : c.toLower ∉ initials) (rest : List Char) :
    isReserved (String.ofList (c :: rest)) = false := by
  refine eq_false_of_ne_true fun hreserved => ?_
  obtain ⟨d, hd, hmem⟩ := exists_initial hreserved
  rw [String.toList_ofList] at hd
  cases hd
  exact h hmem

end Word

end PayFormula
