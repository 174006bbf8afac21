import Mathlib.Data.List.Pairwise
import PayFormula.Proofs.Text.Bytes
import PayFormula.Proofs.Token.Lexeme
import PayFormula.Token.Lexer

/-!
# The order of tokens

The tokens of a text stand one behind the other, each with its first place not
behind its last, and the end token stands behind all of them.
-/
namespace PayFormula

/-- Tokens that stand one behind the other. -/
structure Ordered (tokens : List Token) : Prop where
  forward : ∀ t ∈ tokens, t.first ≤ t.last
  pairwise : tokens.Pairwise (·.last < ·.first)

namespace Ordered

variable {tokens front back : List Token}

theorem sublist (h : Ordered tokens) (hs : front.Sublist tokens) : Ordered front :=
  ⟨fun t ht => h.forward t (hs.subset ht), h.pairwise.sublist hs⟩

theorem left (h : Ordered (front ++ back)) : Ordered front :=
  h.sublist (List.sublist_append_left front back)

theorem right (h : Ordered (front ++ back)) : Ordered back :=
  h.sublist (List.sublist_append_right front back)

theorem head {t : Token} (h : Ordered (t :: back)) : Ordered [t] := h.sublist (by simp)

theorem tail {t : Token} (h : Ordered (t :: back)) : Ordered back :=
  h.sublist (List.sublist_cons_self t back)

theorem lt (h : Ordered (front ++ back)) {a b : Token} (ha : a ∈ front) (hb : b ∈ back) :
    a.last < b.first := (List.pairwise_append.mp h.pairwise).2.2 a ha b hb

/-- No token begins in front of the first one. -/
theorem head_le {t : Token} (h : Ordered (t :: back)) : ∀ u ∈ t :: back, t.first ≤ u.first := by
  intro u hu
  rcases List.mem_cons.mp hu with rfl | hu
  · exact le_rfl
  · exact (h.forward t List.mem_cons_self).trans (List.rel_of_pairwise_cons h.pairwise hu).le

theorem nodup (h : Ordered tokens) : tokens.Nodup := by
  refine h.pairwise.imp_of_mem fun ha _ hlt heq => ?_
  exact absurd (heq ▸ hlt) (not_lt_of_ge (h.forward _ ha))

/-- Tokens come in the order of their places. -/
theorem first_le_iff (h : Ordered tokens) {n m : Nat} {a b : Token} (ha : tokens[n]? = some a)
    (hb : tokens[m]? = some b) : a.first ≤ b.first ↔ n ≤ m := by
  obtain ⟨hn, rfl⟩ := List.getElem?_eq_some_iff.mp ha
  obtain ⟨hm, rfl⟩ := List.getElem?_eq_some_iff.mp hb
  have hlt := List.pairwise_iff_getElem.mp h.pairwise
  have hforward {k : Nat} (hk : k < tokens.length) : tokens[k].first ≤ tokens[k].last :=
    h.forward _ (List.getElem_mem hk)
  constructor
  · intro hle
    by_contra hmn
    exact absurd hle (not_le_of_gt ((hforward hm).trans_lt (hlt m n hm hn (by omega))))
  · intro hnm
    rcases Nat.eq_or_lt_of_le hnm with rfl | hnm
    · exact le_rfl
    · exact (hforward hn).trans (hlt n m hn hm hnm).le

end Ordered

namespace Token

variable {source : List Char}

/-- A token that is scanned at an offset lies between this offset and the end of the text. -/
theorem scan_bounds {steps offset : Nat} {text : List Char} {t : Token}
    (hend : offset + PayFormula.byteLength text = PayFormula.byteLength source)
    (ht : t ∈ scan (LineIndex.ofChars source) steps offset text) :
    offset ≤ t.start ∧ t.start < t.stop ∧ t.stop ≤ PayFormula.byteLength source ∧
      t.first = (LineIndex.ofChars source).position t.start ∧
      t.last = (LineIndex.ofChars source).position (t.stop - 1) := by
  induction steps generalizing offset text with
  | zero => cases ht
  | succ steps ih =>
    cases text with
    | nil => cases ht
    | cons c rest =>
      rw [scan] at ht
      split at ht
      · obtain ⟨hstart, hbounds⟩ := ih (by rw [byteLength_cons] at hend; omega) ht
        exact ⟨by omega, hbounds⟩
      · have hx := Lexeme.read_splits c rest
        have hpos := byteLength_pos hx.nonempty
        have hlen := congrArg PayFormula.byteLength hx.append
        rw [byteLength_append] at hlen
        rcases List.mem_cons.mp ht with rfl | ht
        · simp only [Lexeme.token, LineIndex.span]
          refine ⟨le_rfl, by omega, by omega, trivial, ?_⟩
          rw [if_pos (by omega)]
        · obtain ⟨hstart, hbounds⟩ := ih (by omega) ht
          exact ⟨by omega, hbounds⟩

theorem scan_pairwise {steps offset : Nat} {text : List Char}
    (hend : offset + PayFormula.byteLength text = PayFormula.byteLength source) :
    (scan (LineIndex.ofChars source) steps offset text).Pairwise (·.stop ≤ ·.start) := by
  induction steps generalizing offset text with
  | zero => exact .nil
  | succ steps ih =>
    cases text with
    | nil => exact .nil
    | cons c rest =>
      rw [scan]
      split
      · exact ih (by rw [byteLength_cons] at hend; omega)
      · have hlen := congrArg PayFormula.byteLength (Lexeme.read_splits c rest).append
        rw [byteLength_append] at hlen
        refine List.pairwise_cons.mpr ⟨?_, ih (by omega)⟩
        intro t ht
        exact (scan_bounds (by omega) ht).1

theorem start_lt_stop {t : Token} (ht : t ∈ ofChars source) :
    t.start < t.stop ∧ t.stop ≤ PayFormula.byteLength source := by
  obtain ⟨-, hlt, hle, -⟩ := scan_bounds (Nat.zero_add (PayFormula.byteLength source)) ht
  exact ⟨hlt, hle⟩

theorem apart {t t' : Token} (ht : t ∈ ofChars source) (ht' : t' ∈ ofChars source) (hne : t ≠ t') :
    t.stop ≤ t'.start ∨ t'.stop ≤ t.start := by
  have hsymm : Std.Symm fun a b : Token => a.stop ≤ b.start ∨ b.stop ≤ a.start :=
    ⟨fun _ _ => Or.symm⟩
  have hpairwise : (ofChars source).Pairwise fun a b => a.stop ≤ b.start ∨ b.stop ≤ a.start :=
    (scan_pairwise (Nat.zero_add (PayFormula.byteLength source))).imp .inl
  exact hpairwise.forall ht ht' hne

section Places

variable (hsize : PayFormula.byteLength source < 0x100000000)
include hsize

/-- The places of a token are those of its bytes. -/
theorem span_contains_iff {t : Token} (ht : t ∈ ofChars source) {o : Nat}
    (ho : o ≤ PayFormula.byteLength source) :
    t.span.contains ((LineIndex.ofChars source).position o) ↔ t.start ≤ o ∧ o < t.stop := by
  obtain ⟨-, hlt, hle, hfirst, hlast⟩ :=
    scan_bounds (Nat.zero_add (PayFormula.byteLength source)) ht
  rw [Span.contains_iff]
  change t.first ≤ _ ∧ _ ≤ t.last ↔ _
  rw [hfirst, hlast]
  constructor
  · rintro ⟨hstart, hstop⟩
    constructor
    · by_contra hlate
      exact absurd hstart
        (not_le_of_gt (LineIndex.position_lt_position hsize (by omega) (by omega)))
    · by_contra hearly
      exact absurd hstop
        (not_le_of_gt (LineIndex.position_lt_position hsize (by omega) (by omega)))
  · rintro ⟨hstart, hstop⟩
    exact ⟨LineIndex.position_le_position hsize hstart ho,
      LineIndex.position_le_position hsize (by omega) (by omega)⟩

theorem first_eq_iff {t : Token} (ht : t ∈ ofChars source) {o : Nat}
    (ho : o ≤ PayFormula.byteLength source) :
    t.first = (LineIndex.ofChars source).position o ↔ o = t.start := by
  obtain ⟨-, hlt, hle, hfirst, -⟩ := scan_bounds (Nat.zero_add (PayFormula.byteLength source)) ht
  rw [hfirst]
  constructor
  · intro heq
    rcases Nat.lt_trichotomy o t.start with hlate | rfl | hearly
    · exact absurd heq (LineIndex.position_lt_position hsize hlate (by omega)).ne'
    · rfl
    · exact absurd heq (LineIndex.position_lt_position hsize hearly ho).ne
  · rintro rfl
    rfl

theorem eq_of_span_eq {t t' : Token} (ht : t ∈ ofChars source) (ht' : t' ∈ ofChars source)
    (h : t.span = t'.span) : t = t' := by
  by_contra hne
  obtain ⟨hlt, hle⟩ := start_lt_stop ht
  obtain ⟨hlt', hle'⟩ := start_lt_stop ht'
  have hfirst : t'.first = (LineIndex.ofChars source).position t.start :=
    (congrArg Span.first h).symm.trans ((first_eq_iff hsize ht (by omega)).mpr rfl)
  have hstart := (first_eq_iff hsize ht' (by omega)).mp hfirst
  rcases apart ht ht' hne with hback | hfront <;> omega

end Places

/-- The tokens of a text and its end token, as long as no count leaves its word. -/
theorem ofChars_ordered (hsize : PayFormula.byteLength source < 0x100000000) :
    Ordered (ofChars source ++ [endOf (LineIndex.ofChars source)]) := by
  have hbounds {t : Token} (ht : t ∈ ofChars source) :=
    scan_bounds (Nat.zero_add (PayFormula.byteLength source)) ht
  constructor
  · intro t ht
    rcases List.mem_append.mp ht with ht | ht
    · obtain ⟨-, hpos, hle, hfirst, hlast⟩ := hbounds ht
      rw [hfirst, hlast]
      exact LineIndex.position_le_position hsize (by omega) (by omega)
    · rw [List.mem_singleton.mp ht]
      exact le_rfl
  · refine List.pairwise_append.mpr ⟨?_, List.pairwise_singleton _ _, ?_⟩
    · refine (scan_pairwise (Nat.zero_add _)).imp_of_mem ?_
      intro a b ha hb hab
      obtain ⟨-, hpos, -, -, hlast⟩ := hbounds ha
      obtain ⟨-, hpos', hle, hfirst, -⟩ := hbounds hb
      rw [hlast, hfirst]
      exact LineIndex.position_lt_position hsize (by omega) (by omega)
    · intro a ha b hb
      rw [List.mem_singleton.mp hb]
      obtain ⟨-, hpos, hle, -, hlast⟩ := hbounds ha
      rw [hlast]
      exact LineIndex.position_lt_position hsize (by simp only [LineIndex.ofChars]; omega) le_rfl

end Token

end PayFormula
