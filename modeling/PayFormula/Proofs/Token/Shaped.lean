import PayFormula.Decimal.Double
import PayFormula.Proofs.Calendar
import PayFormula.Proofs.Token.Again

/-!
# What the pieces of a kind look like

A literal that was read has the shape its value is read from, so what is left to
check of a date or a time is only whether there is such a day or minute. A name, a
function or a keyword is a word, and one of this kind. All words that are reserved
are shaped like names, in whichever case their letters are.
-/
namespace PayFormula

/-! ### Words -/

/-- A letter or an underscore, and then letters, digits and underscores. -/
def Word.IsShaped (word : String) : Prop :=
  ∃ c body, word.toList = c :: body ∧ (c.isAlpha ∨ c = '_') ∧ ∀ d ∈ body, d.isAlphanum ∨ d = '_'

/-- The keywords, letter by letter. -/
def Word.spellings : List (List Char) := [
  ['a', 'l', 'i', 'a', 's'], ['a', 'n', 'd'], ['a', 's', 'c'], ['b', 'y'], ['d', 'e', 's', 'c'],
  ['f', 'a', 'l', 's', 'e'], ['i', 'n'], ['n', 'o', 't'], ['n', 'u', 'l', 'l'], ['o', 'r'],
  ['o', 'r', 'd', 'e', 'r'], ['o', 'v', 'e', 'r'], ['s', 'e', 't'], ['t', 'r', 'u', 'e'],
  ['v', 'a', 'r'], ['w', 'h', 'e', 'r', 'e']]

theorem Word.exists_spelling :
    ∀ entry ∈ keywords, ∃ text, entry.1 = String.ofList text ∧ text ∈ spellings := by
  unfold keywords
  repeat refine List.forall_mem_cons.mpr ⟨⟨_, rfl, by decide⟩, ?_⟩
  exact List.forall_mem_nil _

namespace Lexeme

def isWord : List Char → Bool
  | [] => false
  | c :: body => isWordStart c && body.all isWordPart

theorem isWord_toList {word : String} : isWord word.toList ↔ Word.IsShaped word := by
  unfold Word.IsShaped
  cases word.toList with
  | nil => simp [isWord]
  | cons c body => simp [isWord, isWordStart, isWordPart]

instance (word : String) : Decidable (Word.IsShaped word) :=
  decidable_of_iff (isWord word.toList) isWord_toList

/-- A word that is no keyword. -/
def isPlainWord (text : List Char) : Bool :=
  isWord text && text.map Char.toLower ∉ Word.spellings

/-- A letter starts a word in either case, and in either case it may go on with one. -/
theorem isWord_toLower (c : Char) :
    isWordStart c.toLower = isWordStart c ∧ isWordPart c.toLower = isWordPart c := by
  by_cases h : c.val ≥ 'A'.val ∧ c.val ≤ 'Z'.val
  · have hletters : ∀ n < 91, 65 ≤ n → isWordStart (Char.ofNat n).toLower ∧
        isWordStart (Char.ofNat n) ∧ isWordPart (Char.ofNat n).toLower ∧
        isWordPart (Char.ofNat n) := by decide
    have hbounds : 65 ≤ c.toNat ∧ c.toNat ≤ 90 := by
      simpa [UInt32.le_iff_toNat_le] using h
    have hc := hletters c.toNat (by omega) hbounds.1
    rw [Char.ofNat_toNat] at hc
    simp [hc]
  · have hc : c.toLower = c := dif_neg h
    simp [hc]

theorem isWord_map_toLower (text : List Char) : isWord (text.map Char.toLower) = isWord text := by
  cases text with
  | nil => rfl
  | cons c body =>
    rw [List.map_cons, isWord, isWord, (isWord_toLower c).1, List.all_map]
    exact congrArg (fun p => isWordStart c && body.all p) (funext fun d => (isWord_toLower d).2)

theorem isPlainWord_congr {a b : List Char} (h : a.map Char.toLower = b.map Char.toLower) :
    isPlainWord a = isPlainWord b := by
  rw [isPlainWord, isPlainWord, ← isWord_map_toLower a, ← isWord_map_toLower b, h]

end Lexeme

theorem Catalog.isPlainWord :
    ∀ f ∈ functions, ∃ text, f.displayName = String.ofList text ∧ Lexeme.isPlainWord text := by
  unfold functions
  -- as above, the characters of a literal are not computed from its bytes
  repeat refine List.forall_mem_cons.mpr ⟨⟨_, rfl, by decide⟩, ?_⟩
  exact List.forall_mem_nil _

theorem Catalog.isPlainWord_of_isBuiltin {name : String} (h : isBuiltin name) :
    Lexeme.isPlainWord name.toList := by
  obtain ⟨f, hf⟩ := Option.isSome_iff_exists.mp h
  obtain ⟨hmem, hkey⟩ := of_lookup? hf
  obtain ⟨text, htext, hplain⟩ := isPlainWord f hmem
  have hlower : name.toList.map Char.toLower = text.map Char.toLower := by
    rw [← Text.toList_lowercase, ← hkey, Function.key, Text.toList_lowercase, htext,
      String.toList_ofList]
  rwa [Lexeme.isPlainWord_congr hlower]

namespace Word

variable {word : String}

/-- The spelling of a keyword, in any case. -/
theorem spelling_of_keyword? {kind : TokenKind} (h : keyword? word = some kind) :
    word.toList.map Char.toLower ∈ spellings := by
  obtain ⟨spelling, hspelling, hmem⟩ := exists_spelling _ (of_keyword? h)
  have hlist := congrArg String.toList hspelling
  rw [Text.toList_lowercase, String.toList_ofList] at hlist
  rwa [hlist]

/-- Reserved words are words. -/
theorem isShaped_of_isReserved (h : isReserved word) : IsShaped word := by
  rw [← Lexeme.isWord_toList]
  rcases Bool.or_eq_true_iff.mp h with hkeyword | hbuiltin
  · obtain ⟨kind, hkind⟩ := Option.isSome_iff_exists.mp hkeyword
    have hspellings : ∀ text ∈ spellings, Lexeme.isWord text := by decide
    rw [← Lexeme.isWord_map_toLower]
    exact hspellings _ (spelling_of_keyword? hkind)
  · exact (Bool.and_eq_true_iff.mp (Catalog.isPlainWord_of_isBuiltin hbuiltin)).1

end Word

/-! ### Lexemes of a kind -/

namespace Lexeme.Longest

variable {x : Lexeme} (h : Longest x)
include h

theorem isWord (hk : x.kind = .ident ∨ x.kind = .builtin ∨ ∃ w, x.kind = .keyword w) :
    Lexeme.isWord x.text ∧ Word.classify (String.ofList x.text) = x.kind := by
  cases h with
  | word hstart hparts _ hclassify =>
    exact ⟨Bool.and_eq_true_iff.mpr ⟨hstart, List.all_eq_true.mpr hparts⟩, hclassify⟩
  | braced _ hshape =>
    rcases hk with rfl | rfl | ⟨w, rfl⟩ <;> exact absurd hshape (bracedKind_ne (by simp) _)
  | _ => simp at hk

theorem numeral (hk : x.kind = .int ∨ x.kind = .float) :
    ∃ d, Decimal.ofChars? x.text = some d := by
  cases h with
  | @int c body after hc hbody =>
    obtain ⟨htake, hdrop⟩ := @takeWhile_append_stop _ (c :: body) []
      (List.forall_mem_cons.mpr ⟨hc, hbody⟩) (by simp)
    rw [List.append_nil] at htake hdrop
    rw [Decimal.ofChars?, htake, hdrop]
    exact ⟨_, rfl⟩
  | @float c d body part after hc hbody hd hpart =>
    obtain ⟨htake, hdrop⟩ := @takeWhile_append_stop _ (c :: body) ('.' :: d :: part)
      (List.forall_mem_cons.mpr ⟨hc, hbody⟩) (by simp)
    have hdigits : (d :: part).all Char.isDigit :=
      List.all_eq_true.mpr (List.forall_mem_cons.mpr ⟨hd, hpart⟩)
    rw [Decimal.ofChars?, htake, hdrop]
    simp [hdigits]
  | word _ _ _ hclassify =>
    rcases hk with rfl | rfl <;> exact absurd hclassify (Word.classify_ne (by decide) _)
  | braced _ hshape =>
    rcases hk with rfl | rfl <;> exact absurd hshape (bracedKind_ne (by decide) _)
  | _ => simp at hk

theorem bracedKind_eq (hk : x.kind = .date ∨ x.kind = .time) : bracedKind x.text = x.kind := by
  cases h with
  | braced _ hshape => exact hshape
  | word _ _ _ hclassify =>
    rcases hk with rfl | rfl <;> exact absurd hclassify (Word.classify_ne (by decide) _)
  | _ => simp at hk

end Lexeme.Longest

namespace Piece.IsRead

variable {p : Piece} (h : p.IsRead)
include h

/-- A piece is a whole lexeme of its text. -/
theorem longest (hne : p.1 ≠ .string) : Lexeme.Longest ⟨p.1, p.2.toList, []⟩ := by
  rw [← text_of_ne hne]
  obtain ⟨c, rest, -, rfl⟩ := h
  rw [Lexeme.read_piece_text]
  exact (Lexeme.read_longest c rest).alone

theorem word (hk : p.1 = .ident ∨ p.1 = .builtin ∨ ∃ w, p.1 = .keyword w) :
    Word.IsShaped p.2 ∧ Word.classify p.2 = p.1 := by
  have hword := (h.longest fun hs => by simp [hs] at hk).isWord hk
  rwa [Lexeme.isWord_toList, String.ofList_toList] at hword

theorem numeral (hk : p.1 = .int ∨ p.1 = .float) : ∃ d, Decimal.ofChars? p.2.toList = some d :=
  (h.longest fun hs => by simp [hs] at hk).numeral hk

theorem date_fields (hk : p.1 = .date) : ∃ d, Date.fields? p.2.toList = some d := by
  have hshape := (h.longest (by simp [hk])).bracedKind_eq (.inl hk)
  rw [hk, Lexeme.bracedKind] at hshape
  split at hshape
  · exact Option.isSome_iff_exists.mp ‹_›
  · split at hshape <;> cases hshape

theorem time_fields (hk : p.1 = .time) : ∃ c, Clock.fields? p.2.toList = some c := by
  have hshape := (h.longest (by simp [hk])).bracedKind_eq (.inr hk)
  rw [hk, Lexeme.bracedKind] at hshape
  split at hshape
  · cases hshape
  · split at hshape
    · exact Option.isSome_iff_exists.mp ‹_›
    · cases hshape

end Piece.IsRead

end PayFormula
