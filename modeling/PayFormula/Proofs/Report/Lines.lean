import PayFormula.Proofs.Grammar.Anonymous
import PayFormula.Proofs.Reading.Blamed
import PayFormula.Report.Check
import PayFormula.Report.Tokens

/-!
# Reports by lines

Token reports and problem reports have one line for each token and each problem,
whatever the tokens hold. Pieces of the text that may have newlines in them are
quoted, and quoting writes these as escapes. All other pieces that a report takes
from the text are words: the name of a binding without its semicolon, and a
reserved word that was used as a name.
-/
namespace PayFormula

namespace Text

/-- A text on one line. -/
def IsInline (text : String) : Prop := '\n' ∉ text.toList

instance (text : String) : Decidable (IsInline text) := inferInstanceAs (Decidable (_ ∉ _))

@[simp] theorem isInline_append {a b : String} : IsInline (a ++ b) ↔ IsInline a ∧ IsInline b := by
  simp only [IsInline, String.toList_append, List.mem_append, not_or]

theorem isInline_intercalate {separator : String} (h : IsInline separator) {texts : List String}
    (ht : ∀ text ∈ texts, IsInline text) : IsInline (separator.intercalate texts) := by
  induction texts with
  | nil => exact List.not_mem_nil
  | cons text texts ih =>
    obtain ⟨htext, ht⟩ := List.forall_mem_cons.mp ht
    cases texts with
    | nil => rwa [String.intercalate_singleton]
    | cons next texts =>
      rw [String.intercalate_cons_cons, isInline_append, isInline_append]
      exact ⟨⟨htext, h⟩, ih ht⟩

theorem newline_not_mem_toDigits {base : Nat} (hbase : 1 < base) (hlimit : base ≤ 16) (n : Nat) :
    '\n' ∉ Nat.toDigits base n := by
  have hdigit : ∀ k < 16, Nat.digitChar k ≠ '\n' := by decide
  induction n using Nat.strongRecOn with
  | ind n ih =>
    rw [Nat.toDigits_eq_if hbase]
    split
    · rw [List.mem_singleton]
      exact (hdigit n (by omega)).symm
    · rw [List.mem_append, List.mem_singleton, not_or]
      have hlast := Nat.mod_lt n (Nat.zero_lt_of_lt hbase)
      exact ⟨ih (n / base) (Nat.div_lt_self (by omega) hbase), (hdigit _ (by omega)).symm⟩

theorem isInline_toString (n : Nat) : IsInline (toString n) := by
  rw [IsInline, Nat.toString_eq_ofList_toDigits, String.toList_ofList]
  exact newline_not_mem_toDigits (by decide) (by decide) n

/-- A newline has an escape, and no escape has a newline in it. -/
theorem newline_not_mem_escape (c : Char) : '\n' ∉ escape c := by
  have hhex : '\n' ∉ hex c.toNat := newline_not_mem_toDigits (by decide) (by decide) _
  unfold escape
  split_ifs with _ _ hnewline
  any_goals decide
  · simp [hhex]
  · simpa [eq_comm] using hnewline

theorem isInline_quote (text : String) : IsInline (quote text) := by
  simp [IsInline, quote, quoteChars, newline_not_mem_escape]

end Text

open Text

theorem Position.isInline_render (p : Position) : IsInline p.render := by
  simp only [render, isInline_append, isInline_toString, true_and, and_true]
  decide

theorem Span.isInline_render (s : Span) : IsInline s.render := by
  simp only [render, isInline_append, Position.isInline_render, true_and, and_true]
  decide

theorem TokenKind.isInline_text (kind : TokenKind) : IsInline kind.text := by
  cases kind with
  | mark m => cases m <;> decide
  | keyword w => cases w <;> decide
  | illegal _ => exact (by decide : IsInline "ILLEGAL")
  | _ => decide

theorem Token.isInline_describe (t : Token) : IsInline t.describe := by
  simp only [describe, isInline_append, TokenKind.isInline_text, isInline_quote,
    Span.isInline_render, true_and, and_true]
  decide

theorem Word.IsShaped.isInline {word : String} (h : IsShaped word) : IsInline word := by
  obtain ⟨c, body, htext, hc, hbody⟩ := h
  rw [IsInline, htext, List.mem_cons, not_or]
  refine ⟨?_, fun hmem => ?_⟩
  · rintro rfl
    revert hc
    decide
  · exact absurd (hbody _ hmem) (by decide)

/-! ### Names that errors mention -/

/-- A name as it is if it has the shape of one, else the name that stands for others. -/
def Word.shaped (name : String) : String := if IsShaped name then name else standIn

theorem Word.isShaped_shaped (name : String) : IsShaped (shaped name) := by
  rw [shaped]
  split
  · assumption
  · decide

/-- The token with a shaped name, if it is a name. -/
def Token.shaped (t : Token) : Token :=
  if t.IsName then { t with literal := Word.shaped t.literal } else t

theorem Token.shaped_of_isShaped {t : Token} (h : Word.IsShaped t.literal) : t.shaped = t := by
  rw [shaped, Word.shaped, if_pos h, ite_self]

theorem Token.shaped_of_not_isName {t : Token} (h : ¬ t.IsName) : t.shaped = t := if_neg h

theorem shaped_replaces : Replaces Token.shaped Word.shaped where
  kind t := by
    rw [Token.shaped]
    split <;> rfl
  name {t} h := by
    by_cases hshaped : Word.IsShaped t.literal
    · rwa [Token.shaped_of_isShaped hshaped]
    · rw [Token.shaped, if_pos h, Word.shaped, if_neg hshaped]
      have hblank : standIn ≠ "" ∧ standIn ≠ "_" := by decide
      exact ⟨h.kind, hblank.1, hblank.2, isReserved_standIn⟩
  renamed h := by rw [Token.shaped, if_pos h]
  other h := by rw [Token.shaped_of_not_isName h]

/-- The names of a text have the shape of one already. -/
theorem shaped_of_mem_tokenize {source : String} {t : Token} (ht : t ∈ tokenize source) :
    t.shaped = t := by
  by_cases hn : t.IsName
  · exact Token.shaped_of_isShaped ((tokenize_isRead ht).word (.inl hn.kind)).1
  · exact Token.shaped_of_not_isName hn

/-- The name that an error mentions has the shape of one: reading handles all names alike, so what
it mentions of a text in which all names are shaped is shaped. -/
theorem isShaped_of_missingSemicolon {source name : String} {e : SyntaxError}
    (he : e ∈ (parse source).errors) (hc : e.cause = .missingSemicolon name) :
    Word.IsShaped name := by
  have htokens : (tokenize source).map Token.shaped = tokenize source :=
    List.map_congr_left (g := id) (fun t ht => shaped_of_mem_tokenize ht) |>.trans (List.map_id _)
  have heof : Token.shaped (.endOf (.ofString source)) = .endOf (.ofString source) :=
    Token.shaped_of_not_isName fun hn => by cases hn.kind
  have herrors :=
    (parseTokens_replace shaped_replaces (tokenize source) (.endOf (.ofString source))).2
  rw [htokens, heof] at herrors
  have he : e ∈ (parseTokens (tokenize source) (.endOf (.ofString source))).errors := he
  rw [herrors] at he
  obtain ⟨e', -, rfl⟩ := List.mem_map.mp he
  rw [SyntaxError.replace] at hc
  cases hcause : e'.cause with
  | missingSemicolon name' =>
    rw [hcause] at hc
    cases hc
    exact Word.isShaped_shaped name'
  | _ =>
    rw [hcause] at hc
    cases hc

/-! ### What errors say -/

theorem CalendarError.isInline_message (error : CalendarError) : IsInline error.message := by
  cases error <;> decide

namespace SyntaxError

theorem isInline_mention (t : Token) : IsInline (mention t) := by
  have hquoted : IsInline (t.kind.text ++ " " ++ quote t.literal) := by
    simp only [isInline_append, TokenKind.isInline_text, isInline_quote, true_and, and_true]
    decide
  unfold mention
  split <;> first | exact hquoted | exact TokenKind.isInline_text _

/-- What an error says stands on one line if what it takes from the text as it is does. -/
theorem isInline_message {e : SyntaxError}
    (hreserved : e.cause = .reservedWord → IsInline e.token.literal)
    (hname : ∀ name, e.cause = .missingSemicolon name → IsInline name) : IsInline e.message := by
  rw [message]
  cases hc : e.cause with
  | unexpectedToken expected =>
    have hexpected : IsInline (" or ".intercalate (expected.map TokenKind.text)) :=
      isInline_intercalate (by decide)
        (List.forall_mem_map.mpr fun kind _ => kind.isInline_text)
    simp only [isInline_append, isInline_mention, hexpected]
    decide
  | reservedWord =>
    simp only [isInline_append, hreserved hc]
    decide
  | missingSemicolon name =>
    simp only [isInline_append, hname name hc]
    decide
  | unclosed opening =>
    have hopening : IsInline opening.text := TokenKind.isInline_text (.mark opening)
    have hclosing : IsInline (closing opening) := by cases opening <;> decide
    simp only [isInline_append, isInline_mention, hopening, hclosing]
    decide
  | noOperand =>
    simp only [isInline_append, isInline_mention]
    decide
  | missingLeft =>
    simp only [isInline_append, TokenKind.isInline_text]
    decide
  | lexical fault =>
    have hfault : IsInline fault.message := by cases fault <;> decide
    simp only [isInline_append, isInline_quote, hfault]
    decide
  | invalidDate error => exact error.isInline_message
  | invalidTime error => exact error.isInline_message
  | tooDeep =>
    simp only [isInline_append, isInline_toString]
    decide
  | _ =>
    dsimp only
    decide

theorem Cause.isInline_label (cause : Cause) : IsInline cause.label := by
  cases cause <;> dsimp only [label] <;> decide

/-- The line of a report on an error in the text called `label`. -/
def reportLine (label : String) (e : SyntaxError) : String :=
  label ++ ":" ++ toString (e.token.first.line + 1) ++ ":" ++ toString (e.token.first.column + 1) ++
    ": error[" ++ e.cause.label ++ "]: " ++ e.message

theorem isInline_reportLine {label source : String} (hlabel : IsInline label) {e : SyntaxError}
    (he : e ∈ (parse source).errors) : IsInline (e.reportLine label) := by
  obtain ⟨hmem, hfound⟩ := parse_errors_within source e he
  have hread : e.token.kind ≠ .eof → e.token.piece.IsRead := by
    intro hk
    rcases List.mem_append.mp hmem with hmem | hmem
    · exact tokenize_isRead hmem
    · rw [List.mem_singleton.mp hmem] at hk
      exact absurd rfl hk
  have hmessage : IsInline e.message := by
    refine isInline_message (fun hc => ?_) fun name hc =>
      (isShaped_of_missingSemicolon he hc).isInline
    rw [hc] at hfound
    exact (Word.isShaped_of_isReserved (isReserved_of_foundAt hread hfound)).isInline
  simp only [reportLine, isInline_append, isInline_toString, hlabel, e.cause.isInline_label,
    hmessage]
  decide

end SyntaxError

/-! ### Lines of reports -/

namespace Text

theorem lines_of_isInline {line : List Char} (h : '\n' ∉ line) (rest : List Char) :
    lines (line ++ '\n' :: rest) = line :: lines rest := by
  induction line with
  | nil => rfl
  | cons c line ih =>
    obtain ⟨hc, h⟩ := not_or.mp (List.mem_cons.not.mp h)
    rw [lines] at ih
    rw [lines, List.cons_append, pieces, if_neg (by simpa [eq_comm] using hc), ih h]

variable {records : List String}

/-- Records of one line each, with a newline behind each, are the lines of their text. -/
theorem lines_join (h : ∀ record ∈ records, IsInline record) :
    lines (String.join (records.map (· ++ "\n"))).toList = records.map String.toList ++ [[]] := by
  induction records with
  | nil => rfl
  | cons record records ih =>
    obtain ⟨hrecord, h⟩ := List.forall_mem_cons.mp h
    have htext : (String.join ((record :: records).map (· ++ "\n"))).toList =
        record.toList ++ '\n' :: (String.join (records.map (· ++ "\n"))).toList := by
      simp [String.toList_join]
    rw [htext, lines_of_isInline hrecord, ih h, List.map_cons, List.cons_append]

theorem count_newline_join (h : ∀ record ∈ records, IsInline record) :
    (String.join (records.map (· ++ "\n"))).toList.count '\n' = records.length := by
  induction records with
  | nil => rfl
  | cons record records ih =>
    obtain ⟨hrecord, h⟩ := List.forall_mem_cons.mp h
    have hone : "\n".toList.count '\n' = 1 := by decide
    rw [List.map_cons, String.join_cons, String.toList_append, String.toList_append,
      List.count_append, List.count_append, ih h, List.count_eq_zero.mpr hrecord, hone,
      List.length_cons]
    omega

end Text

theorem Report.tokens_eq_join (source : String) : tokens source .simple =
    String.join (((tokenize source).map Token.describe).map (· ++ "\n")) := by
  rw [tokens, List.map_map]
  rfl

/-- The lines of a problem report. -/
def Report.checkLines (label : String) (errors : List SyntaxError) : List String :=
  if errors.isEmpty then [label ++ ": ok"] else errors.map (SyntaxError.reportLine label)

theorem Report.check_eq_join (label source : String) : check label source =
    ⟨String.join ((checkLines label (parse source).errors).map (· ++ "\n")),
      !(parse source).errors.isEmpty⟩ := by
  have hdiagnostics : (Document.ofSource source).diagnostics =
      (parse source).errors.map SyntaxError.diagnostic := rfl
  rw [check, hdiagnostics, checkLines]
  cases (parse source).errors with
  | nil => simp [String.append_assoc]
  | cons e errors =>
    rw [List.isEmpty_cons, if_neg Bool.false_ne_true, List.map_map]
    exact congrArg (fun records => Check.mk (String.join records) true) List.map_map

theorem Report.length_checkLines (label : String) (errors : List SyntaxError) :
    (checkLines label errors).length = max 1 errors.length := by
  cases errors with
  | nil => rfl
  | cons e errors =>
    rw [checkLines, List.isEmpty_cons, if_neg Bool.false_ne_true, List.length_map,
      List.length_cons]
    omega

theorem Report.isInline_of_mem_checkLines {label source : String} (hlabel : IsInline label) :
    ∀ record ∈ checkLines label (parse source).errors, IsInline record := by
  rw [checkLines]
  split
  · rw [List.forall_mem_singleton, isInline_append]
    exact ⟨hlabel, by decide⟩
  · exact List.forall_mem_map.mpr fun e he => SyntaxError.isInline_reportLine hlabel he

/-- Both reports have a line for each token or problem, and no other newlines than those that end
the lines. The line of a problem starts with its place, counted from one. -/
theorem reports_lined (source : String) :
    lines (Report.tokens source .simple).toList =
        (tokenize source).map (·.describe.toList) ++ [[]] ∧
      (Report.tokens source .simple).toList.count '\n' = (tokenize source).length ∧
      ∀ label, IsInline label →
        let errors := (parse source).errors
        let report := Report.check label source
        lines report.text.toList = (Report.checkLines label errors).map String.toList ++ [[]] ∧
          report.text.toList.count '\n' = max 1 errors.length ∧
          (report.failed ↔ errors ≠ []) := by
  have hlisted : (Report.tokens source .simple).toList =
      (String.join (((tokenize source).map Token.describe).map (· ++ "\n"))).toList :=
    congrArg String.toList (Report.tokens_eq_join source)
  have hrecords : ∀ record ∈ (tokenize source).map Token.describe, IsInline record :=
    List.forall_mem_map.mpr fun t _ => t.isInline_describe
  refine ⟨?_, ?_, fun label hlabel => ?_⟩
  · rw [hlisted, lines_join hrecords, List.map_map]
    rfl
  · rw [hlisted, count_newline_join hrecords, List.length_map]
  · intro errors report
    have hreport : report = _ := Report.check_eq_join label source
    have hlines : ∀ record ∈ Report.checkLines label errors, IsInline record :=
      Report.isInline_of_mem_checkLines hlabel
    rw [hreport, lines_join hlines, count_newline_join hlines, Report.length_checkLines]
    simp [errors]

/-- A newline in an illegal token, one in a comment and one in a string. -/
theorem reports_lined_quoted :
    IsInline "f.wf" ∧
      (tokenize "/* \n */ \"a\nb").length = 2 ∧
      lines (Report.tokens "/* \n */ \"a\nb" .simple).toList =
        (tokenize "/* \n */ \"a\nb").map (·.describe.toList) ++ [[]] ∧
      (Report.check "f.wf" "/* \n */ \"a\nb").text =
        "f.wf:2:5: error[lexical error]: unterminated string literal: \"\\\"a\\nb\"\n" ∧
      (Report.check "f.wf" "/* \n */ \"a\nb").text.toList.count '\n' = 1 := by
  have hlabel : IsInline "f.wf" := by decide
  obtain ⟨hlines, -, hcheck⟩ := reports_lined "/* \n */ \"a\nb"
  obtain ⟨-, hcount, -⟩ := hcheck "f.wf" hlabel
  refine ⟨hlabel, by decide +kernel, hlines, by decide +kernel, ?_⟩
  rw [hcount]
  decide +kernel

end PayFormula
