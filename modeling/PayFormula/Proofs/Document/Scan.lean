import PayFormula.Document.Signature
import PayFormula.Proofs.Reading.Enclosed
import PayFormula.Proofs.Reading.Uncommented

/-!
# Searching for a call backwards

The search for the parenthesis that is open in front of a position looks at one
token after another, the last one first. Comments are passed over, and so are
tokens that are not in front of the position.

What stands before the parenthesis is looked at in two ways. The name is the
nearest token that is no comment, but the `$` of a macro is only found right
before the token that stands in front of the parenthesis. So comments are in the
way of finding a macro, and of nothing else.
-/
namespace PayFormula.CallSite

variable {place : Position} {depth : Nat} {t : Token} {before : List Token}

theorem openParen?_behind (h : ¬ t.first < place) :
    openParen? place depth (t :: before) = openParen? place depth before := if_neg h

/-- Tokens that the search passes over wherever they stand. -/
def Plain (kind : TokenKind) : Prop :=
  kind ∉ openings ∧ kind ∉ closings ∧ kind ≠ .mark .semicolon

theorem openParen?_plain (h : Plain t.kind) :
    openParen? place depth (t :: before) = openParen? place depth before := by
  obtain ⟨ho, hc, hs⟩ := h
  rw [openParen?]
  split
  · split
    · rename_i hk
      simp [closings, hk] at hc
    · rename_i hk
      simp [closings, hk] at hc
    · rename_i hk
      simp [openings, hk] at ho
    · rename_i hk
      simp [openings, hk] at ho
    · rename_i hk
      exact absurd hk hs
    · rfl
  · rfl

theorem plain_of_isComment {kind : TokenKind} (h : kind.isComment) : Plain kind := by
  cases kind with
  | lineComment | blockComment => simp [Plain, openings, closings]
  | _ => cases h

theorem openParen?_closing (h : t.first < place) (hk : t.kind ∈ closings) :
    openParen? place depth (t :: before) = openParen? place (depth + 1) before := by
  simp only [closings, List.mem_cons, List.not_mem_nil, or_false] at hk
  obtain ⟨kind, _⟩ := t
  rcases hk with rfl | rfl <;> exact if_pos h

theorem openParen?_opening (h : t.first < place) (hk : t.kind ∈ openings) :
    openParen? place (depth + 1) (t :: before) = openParen? place depth before := by
  simp only [openings, List.mem_cons, List.not_mem_nil, or_false] at hk
  obtain ⟨kind, _⟩ := t
  rcases hk with rfl | rfl <;> exact if_pos h

theorem openParen?_lparen (h : t.first < place) (hk : t.kind = .mark .lparen) :
    openParen? place 0 (t :: before) = some (t, before) := by
  obtain ⟨kind, _⟩ := t
  cases hk
  exact if_pos h

theorem openParen?_lbracket (hk : t.kind = .mark .lbracket) :
    openParen? place 0 (t :: before) = openParen? place 0 before := by
  obtain ⟨kind, _⟩ := t
  cases hk
  exact ite_self _

theorem openParen?_semicolon (h : t.first < place) (hk : t.kind = .mark .semicolon) :
    openParen? place 0 (t :: before) = none := by
  obtain ⟨kind, _⟩ := t
  cases hk
  exact if_pos h

theorem openParen?_semicolon_inside (hk : t.kind = .mark .semicolon) :
    openParen? place (depth + 1) (t :: before) = openParen? place (depth + 1) before := by
  obtain ⟨kind, _⟩ := t
  cases hk
  exact ite_self _

/-! ### Comments -/

/-- Without the comments the same parenthesis is found, and before it the same but for comments. -/
theorem openParen?_filter (place : Position) (depth : Nat) (tokens : List Token) :
    openParen? place depth (tokens.filter (!·.kind.isComment)) =
      (openParen? place depth tokens).map (Prod.map id (List.filter (!·.kind.isComment))) := by
  induction tokens generalizing depth with
  | nil => rfl
  | cons t before ih =>
    cases ht : t.kind.isComment with
    | true =>
      rw [List.filter_cons_of_neg (by simp [ht]), openParen?_plain (plain_of_isComment ht), ih]
    | false =>
      rw [List.filter_cons_of_pos (by simp [ht]), openParen?, openParen?]
      split
      · split
        · exact ih _
        · exact ih _
        · exact ih _
        · split
          · rfl
          · exact ih _
        · split
          · rfl
          · exact ih _
        · exact ih _
      · exact ih _

/-- The tokens before a parenthesis, in reverse, are a name and the `$` of a macro, but for a
comment behind one of the two. -/
structure Commented (before : List Token) : Prop where
  comment : ∃ t ∈ before.take 2, t.kind.isComment
  dollar : ∃ name dollar rest, before.filter (!·.kind.isComment) = name :: dollar :: rest ∧
    name.kind = .ident ∧ dollar.kind = .mark .dollar

theorem find?_filter_comments (before : List Token) :
    (before.filter (!·.kind.isComment)).find? (!·.kind.isComment) =
      before.find? (!·.kind.isComment) := by
  simp [List.find?_filter]

/-- With a comment among the last two tokens before a parenthesis no `$` is found before a name. -/
theorem not_dollar_of_comment (h : ∃ t ∈ before.take 2, t.kind.isComment)
    (ht : before.find? (!·.kind.isComment) = some t) (hname : t.kind = .ident) :
    before[1]?.any (·.kind == .mark .dollar) = false := by
  match before with
  | [] | [_] => rfl
  | first :: second :: rest =>
    rw [Bool.eq_false_iff]
    intro hdollar
    replace hdollar : second.kind = .mark .dollar := by simpa using hdollar
    have hfirst : first.kind.isComment := by simpa [hdollar, TokenKind.isComment] using h
    rw [List.find?_cons_of_neg (by simp [hfirst]),
      List.find?_cons_of_pos (by rw [hdollar]; rfl)] at ht
    cases ht
    rw [hdollar] at hname
    cases hname

/-- Which token stands second without comments only matters behind one among the last two. -/
theorem dollar_filter_of_not_commented (h : ¬ Commented before)
    (ht : before.find? (!·.kind.isComment) = some t) (hname : t.kind = .ident) :
    (before.filter (!·.kind.isComment))[1]?.any (·.kind == .mark .dollar) =
      before[1]?.any (·.kind == .mark .dollar) := by
  by_cases hcomment : ∃ t ∈ before.take 2, t.kind.isComment
  · rw [not_dollar_of_comment hcomment ht hname, Bool.eq_false_iff]
    intro hdollar
    match hfilter : before.filter (!·.kind.isComment) with
    | [] | [_] => simp [hfilter] at hdollar
    | name :: dollar :: rest =>
      rw [← List.head?_filter, hfilter, List.head?_cons] at ht
      cases ht
      exact h ⟨hcomment, t, dollar, rest, hfilter, hname, by simpa [hfilter] using hdollar⟩
  · simp only [not_exists, not_and] at hcomment
    match before with
    | [] => rfl
    | [only] => simp [hcomment only (by simp)]
    | first :: second :: rest =>
      simp [hcomment first (by simp), hcomment second (by simp)]

/-- Without comments before a parenthesis a macro is found where comments were in the way of it. -/
theorem ofParen?_filter (lparen : Token) (before : List Token) :
    (Commented before → ofParen? lparen before = none ∧
      ofParen? lparen (before.filter (!·.kind.isComment)) = some .macroCall) ∧
    (¬ Commented before →
      ofParen? lparen (before.filter (!·.kind.isComment)) = ofParen? lparen before) := by
  constructor
  · intro h
    obtain ⟨name, dollar, rest, hfilter, hname, hdollar⟩ := h.dollar
    have hfind : before.find? (!·.kind.isComment) = some name := by
      rw [← find?_filter_comments, hfilter]
      exact List.find?_cons_of_pos (by rw [hname]; rfl)
    constructor
    · rw [ofParen?, hfind]
      simp only [hname, not_dollar_of_comment h.comment hfind hname]
      rfl
    · rw [ofParen?, find?_filter_comments, hfind, hfilter]
      simp [hname, hdollar]
  · intro h
    rw [ofParen?, ofParen?, find?_filter_comments]
    cases hfind : before.find? (!·.kind.isComment) with
    | none => rfl
    | some name =>
      cases hname : name.kind with
      | ident => simp only [hname, dollar_filter_of_not_commented h hfind hname]
      | _ => simp only [hname]

/-- The parenthesis open in front of a position is that of a macro, with a comment behind its `$` or
its name. -/
def Hidden (tokens : List Token) (place : Position) : Prop :=
  ∃ lparen before, openParen? place 0 tokens.reverse = some (lparen, before) ∧ Commented before

theorem scan_filter (tokens : List Token) (place : Position) :
    scan? (tokens.filter (!·.kind.isComment)) place =
      (openParen? place 0 tokens.reverse).bind fun (lparen, before) =>
        ofParen? lparen (before.filter (!·.kind.isComment)) := by
  rw [scan?, ← List.filter_reverse, openParen?_filter, Option.bind_map]
  rfl

theorem scan_of_hidden {tokens : List Token} (h : Hidden tokens place) :
    scan? tokens place = none ∧
      scan? (tokens.filter (!·.kind.isComment)) place = some .macroCall := by
  obtain ⟨lparen, before, hopen, hcommented⟩ := h
  rw [scan_filter, scan?, hopen]
  exact (ofParen?_filter lparen before).1 hcommented

theorem scan_of_not_hidden {tokens : List Token} (h : ¬ Hidden tokens place) :
    scan? (tokens.filter (!·.kind.isComment)) place = scan? tokens place := by
  rw [scan_filter, scan?]
  cases hopen : openParen? place 0 tokens.reverse with
  | none => rfl
  | some found =>
    exact (ofParen?_filter found.1 found.2).2 fun hcommented => h ⟨_, _, hopen, hcommented⟩

/-- Comments make a difference for the calls of macros only, which they hide. -/
theorem scan_uncommented (tokens : List Token) (place : Position) :
    (scan? (tokens.filter (!·.kind.isComment)) place = scan? tokens place ↔
      ¬ Hidden tokens place) ∧
    (Hidden tokens place → scan? tokens place = none ∧
      scan? (tokens.filter (!·.kind.isComment)) place = some .macroCall) := by
  refine ⟨⟨fun heq h => ?_, scan_of_not_hidden⟩, scan_of_hidden⟩
  obtain ⟨hnone, hsome⟩ := scan_of_hidden h
  rw [hnone, hsome] at heq
  cases heq

theorem tokenize_macro_commented : tokenize "$f /**/ (1" =
    [⟨.mark .dollar, "$", ⟨0, 0⟩, ⟨0, 0⟩, 0, 1⟩, ⟨.ident, "f", ⟨0, 1⟩, ⟨0, 1⟩, 1, 2⟩,
      ⟨.blockComment, "/**/", ⟨0, 3⟩, ⟨0, 6⟩, 3, 7⟩, ⟨.mark .lparen, "(", ⟨0, 8⟩, ⟨0, 8⟩, 8, 9⟩,
      ⟨.int, "1", ⟨0, 9⟩, ⟨0, 9⟩, 9, 10⟩] := by decide +kernel

/-- A comment between its name and its parenthesis hides the macro that is being typed. -/
theorem scan_uncommented_macro : Hidden (tokenize "$f /**/ (1") ⟨0, 10⟩ ∧
    scan? (tokenize "$f /**/ (1") ⟨0, 10⟩ = none ∧
      scan? ((tokenize "$f /**/ (1").filter (!·.kind.isComment)) ⟨0, 10⟩ = some .macroCall := by
  have hhidden : Hidden (tokenize "$f /**/ (1") ⟨0, 10⟩ := by
    rw [tokenize_macro_commented]
    refine ⟨_, _, rfl, ⟨_, List.mem_cons_self, rfl⟩, _, _, [], rfl, rfl, rfl⟩
  exact ⟨hhidden, (scan_uncommented _ _).2 hhidden⟩

/-- With a comment between its name and its parenthesis a macro that is being typed is not found. -/
theorem scan_comment_hides_macro :
    ¬ ∀ (source : String) (place : Position),
      scan? ((tokenize source).filter (!·.kind.isComment)) place =
        scan? (tokenize source) place := by
  intro h
  have hmacro := h "$f /**/ (1" ⟨0, 10⟩
  rw [tokenize_macro_commented] at hmacro
  revert hmacro
  decide

end PayFormula.CallSite
