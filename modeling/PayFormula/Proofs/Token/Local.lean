import PayFormula.Proofs.Token.Again

/-!
# What a lexeme sees of the text behind it

A lexeme looks at most two characters ahead, and all characters that start words
are alike to it. So it is read in the same way in front of two texts that go on
alike.
-/
namespace PayFormula

/-- Two texts that go on alike for what stands in front of them: with the same character, or both
with a word, and after a point both with a digit or neither. -/
structure Alike (a b : List Char) : Prop where
  head : a.head? = b.head? ∨
    (∃ c ∈ a.head?, Lexeme.isWordStart c) ∧ ∃ c ∈ b.head?, Lexeme.isWordStart c
  point : a.head? = some '.' → a.tail.head?.any Char.isDigit = b.tail.head?.any Char.isDigit

namespace Lexeme

variable {c d : Char} {rest after : List Char}

theorem isWordPart_of_isWordStart (h : isWordStart c) : isWordPart c := by
  rw [isWordStart, Bool.or_eq_true] at h
  rw [isWordPart, Bool.or_eq_true]
  refine h.imp_left fun halpha => ?_
  change (c.isAlpha || c.isDigit) = true
  rw [halpha, Bool.true_or]

/-- A character that starts a word is none of a few others. -/
theorem not_mem_of_isWordStart {others : List Char} (hothers : others.all (!isWordStart ·))
    (h : isWordStart c) : c ∉ others := by
  intro hmem
  have hc := List.all_eq_true.mp hothers c hmem
  rw [h] at hc
  cases hc

theorem not_isBraced_of_isWordStart (h : isWordStart c) : isBraced c = false := by
  rw [isBraced, not_isDigit_of_isWordStart h, Bool.false_or, decide_eq_false_iff_not]
  exact not_mem_of_isWordStart (by decide) h

theorem pair?_eq_none_of_isWordStart (h : isWordStart d) : pair? c d = none := by
  cases hp : pair? c d with
  | none => rfl
  | some m => exact absurd (mem_of_pair? hp) (not_mem_of_isWordStart (by decide) h)

end Lexeme

open Lexeme

namespace Alike

variable {a b : List Char} (h : Alike a b)
include h

/-- What is not of a class that all characters or none that start words are of. -/
theorem stops {p : Char → Bool} (hp : ∀ c d, isWordStart c → isWordStart d → p c = p d)
    (ha : ∀ c ∈ a.head?, p c = false) : ∀ c ∈ b.head?, p c = false := by
  rcases h.head with heq | ⟨⟨c, hc, hcw⟩, d, hd, hdw⟩
  · rwa [heq] at ha
  · intro e he
    obtain rfl := Option.some.inj (hd.symm.trans he)
    rw [hp d c hdw hcw]
    exact ha c hc

theorem not_mem {others : List Char} (hothers : others.all (!isWordStart ·))
    (ha : ∀ c ∈ a.head?, c ∉ others) : ∀ c ∈ b.head?, c ∉ others := by
  have hstops := h.stops (p := fun c => decide (c ∈ others))
    (fun c d hc hd => by
      rw [decide_eq_false (not_mem_of_isWordStart hothers hc),
        decide_eq_false (not_mem_of_isWordStart hothers hd)])
    (fun c hc => decide_eq_false (ha c hc))
  exact fun c hc => of_decide_eq_false (hstops c hc)

theorem nil (ha : a = []) : b = [] := by
  rcases h.head with heq | ⟨⟨c, hc, -⟩, -⟩
  · rwa [ha, eq_comm, List.head?_nil, List.head?_eq_none_iff] at heq
  · rw [ha] at hc
    cases hc

/-- A point in front of something that is no digit. -/
theorem not_isDigit {d : Char} {tail : List Char}
    (ha : ∀ d tail, a = '.' :: d :: tail → d.isDigit = false) (hb : b = '.' :: d :: tail) :
    d.isDigit = false := by
  have hhead : a.head? = some '.' := by
    rcases h.head with heq | ⟨-, c, hc, hcw⟩
    · rw [heq, hb]
      rfl
    · rw [hb] at hc
      cases hc
      exact absurd hcw (by decide)
  have hpoint := h.point hhead
  rw [hb] at hpoint
  change _ = d.isDigit at hpoint
  rw [← hpoint]
  cases a with
  | nil => cases hhead
  | cons c tail =>
    cases hhead
    cases tail with
    | nil => rfl
    | cons e tail => exact ha e tail rfl

end Alike

namespace Lexeme

variable {c : Char} {rest after : List Char}

/-- In front of a text that goes on like the one behind it a lexeme ends as it did. -/
theorem Longest.alike {x : Lexeme} (hx : Longest x) (h : Alike x.rest after) :
    Longest { x with rest := after } := by
  have hpair {c : Char} (hstop : ∀ d ∈ x.rest.head?, pair? c d = none) :
      ∀ d ∈ after.head?, pair? c d = none := by
    have hstops := h.stops (p := fun d => (pair? c d).isSome)
      (fun d e hd he => by
        rw [pair?_eq_none_of_isWordStart hd, pair?_eq_none_of_isWordStart he])
      (fun d hd => by rw [hstop d hd]; rfl)
    exact fun d hd => by simpa using hstops d hd
  have hbrace (hstop : ∀ d ∈ x.rest.head?, isBraced d = false ∧ d ≠ '\x7d') :
      ∀ d ∈ after.head?, isBraced d = false ∧ d ≠ '\x7d' := by
    have hstops := h.stops (p := isBraced)
      (fun d e hd he => by
        rw [not_isBraced_of_isWordStart hd, not_isBraced_of_isWordStart he])
      (fun d hd => (hstop d hd).1)
    have hne : ∀ d ∈ after.head?, d ∉ ['\x7d'] :=
      h.not_mem (by decide) fun d hd => by simpa using (hstop d hd).2
    exact fun d hd => ⟨hstops d hd, by simpa using hne d hd⟩
  have hdigits (hstop : ∀ d ∈ x.rest.head?, d.isDigit = false) :
      ∀ d ∈ after.head?, d.isDigit = false :=
    h.stops (fun d e hd he => by
      rw [not_isDigit_of_isWordStart hd, not_isDigit_of_isWordStart he]) hstop
  cases hx with
  | word hstart hparts hstop hkind =>
    refine .word hstart hparts (h.stops (fun d e hd he => ?_) hstop) hkind
    rw [isWordPart_of_isWordStart hd, isWordPart_of_isWordStart he]
  | int hc hbody hstop hpoint =>
    exact .int hc hbody (hdigits hstop) fun d tail => h.not_isDigit hpoint
  | float hc hbody hfirst hpart hstop => exact .float hc hbody hfirst hpart (hdigits hstop)
  | string hclosed => exact .string hclosed
  | openString hopen =>
    rw [h.nil rfl]
    exact .openString hopen
  | openComment hopen =>
    rw [h.nil rfl]
    exact .openComment hopen
  | lineComment hline hstop =>
    refine .lineComment hline fun d hd => ?_
    have hne {c : Char} (hc : isWordStart c) : c ≠ '\n' := by
      rintro rfl
      revert hc
      decide
    have hend := h.stops (p := (· ≠ '\n'))
      (fun d e hd he => by rw [decide_eq_true (hne hd), decide_eq_true (hne he)])
      (fun d hd => by simp [hstop d hd]) d hd
    simpa using hend
  | blockComment hclosed => exact .blockComment hclosed
  | braced hinner hshape => exact .braced hinner hshape
  | lbrace hstop => exact .lbrace (hbrace hstop)
  | openBrace hinner hne hstop => exact .openBrace hinner hne (hbrace hstop)
  | pair hmark => exact .pair hmark
  | single hmark hstop hslash =>
    exact .single hmark (hpair hstop) fun hc => h.not_mem (by decide) (hslash hc)
  | stray hword hdigit hother hmark hstop => exact .stray hword hdigit hother hmark (hpair hstop)

/-- A lexeme is read again from its text in front of whatever goes on like what was behind it. -/
theorem read_alike (h : Alike (read c rest).rest after) :
    read c ((read c rest).text.tail ++ after) = { read c rest with rest := after } :=
  read_of_longest ((read_longest c rest).alike h)

end Lexeme

end PayFormula
