import PayFormula.Proofs.Token.Longest
import PayFormula.Proofs.Token.Reads
import PayFormula.Syntax.Tree

/-!
# Reading printed pieces

Every piece is read from the text that is printed for it, in front of what cannot
continue it. Names, literals and comments are printed as they were read once; the
text that they were read from is read again, however it goes on. Operators and
keywords are printed in one spelling.
-/
namespace PayFormula

/-- The characters behind which or in front of which no piece goes on. -/
def delimiters : List Char := [' ', '\n', ',', ';', '(', ')', ']']

/-- Nothing stands ahead that could continue a word, a number or a literal. -/
def Delimited (text : List Char) : Prop := ∀ c ∈ text.head?, c ∈ delimiters

theorem delimited_cons {c : Char} (h : c ∈ delimiters) (text : List Char) :
    Delimited (c :: text) := by
  intro d hd
  cases hd
  exact h

theorem Delimited.stops {text : List Char} (h : Delimited text) {p : Char → Bool}
    (hp : delimiters.all (!p ·)) : ∀ c ∈ text.head?, p c = false :=
  fun c hc => by simpa using List.all_eq_true.mp hp c (h c hc)

/-- The kinds of pieces that go on to the end of the text because nothing ended them. -/
def TokenKind.isCut : TokenKind → Bool
  | .illegal .unterminatedString | .illegal .unterminatedComment => true
  | _ => false

/-- The kinds of pieces that are printed as they were read. -/
def TokenKind.isKept : TokenKind → Bool
  | .ident | .builtin | .int | .float | .string | .date | .time | .blockComment => true
  | _ => false

/-- A brace, and what stands behind it, that no other brace closed. -/
def Piece.opensBrace (p : Piece) : Bool :=
  p.1 = .mark .lbrace || p.1 = .illegal .illegalCharacter && p.2.toList.head? = some '\x7b'

/-- The text that a piece is read from. -/
def Piece.text (p : Piece) : List Char :=
  match p.1 with
  | .string => '"' :: p.2.toList ++ ['"']
  | _ => p.2.toList

theorem Piece.text_of_eq {p : Piece} (h : p.1 = .string) :
    p.text = '"' :: p.2.toList ++ ['"'] := by
  unfold text
  rw [h]

theorem Piece.text_of_ne {p : Piece} (h : p.1 ≠ .string) : p.text = p.2.toList := by
  unfold text
  split
  · contradiction
  · rfl

namespace Lexeme

variable {c : Char} {x : Lexeme} {rest after : List Char}

theorem literal_eq_text (h : x.kind ≠ .string) : x.literal = x.text := by
  unfold literal
  split
  · contradiction
  · rfl

theorem piece_text_of_ne (h : x.kind ≠ .string) : x.piece.text = x.text := by
  rw [Piece.text_of_ne h, piece, String.toList_ofList, literal_eq_text h]

/-- The piece keeps the text that was read, also that of a string without its quotes. -/
theorem Longest.piece_text (h : Longest x) : x.piece.text = x.text := by
  by_cases hk : x.kind = .string
  · cases h with
    | string => simp [Piece.text, piece, literal]
    | word _ _ _ hclassify => exact absurd (hclassify.trans hk) (Word.classify_ne_string _)
    | braced _ hshape => exact absurd (hshape.trans hk) (bracedKind_ne (by decide) _)
    | _ => cases hk
  · exact piece_text_of_ne hk

/-- Such a lexeme is read from its text, unless a space stands first. -/
theorem Longest.isRead (h : Longest x) (hspace : ∀ c ∈ x.text.head?, isSpace c = false) :
    x.piece.IsRead := by
  obtain ⟨c, body, htext, hread⟩ := h.read_eq
  rw [htext] at hspace
  exact ⟨c, body ++ x.rest, hspace c rfl, congrArg piece hread⟩

theorem read_piece_text (c : Char) (rest : List Char) :
    (read c rest).piece.text = (read c rest).text := (read_longest c rest).piece_text

/-- A piece behind which something stands was ended. -/
theorem read_ended (h : (read c rest).rest ≠ []) : (read c rest).kind.isCut = false := by
  have hlongest := read_longest c rest
  generalize read c rest = x at h hlongest
  cases hlongest with
  | word _ _ _ hclassify =>
    have hkinds : ∀ kind ∈ .builtin :: .ident :: Word.keywords.map (·.2),
        TokenKind.isCut kind = false := by decide
    exact hkinds _ (hclassify ▸ Word.classify_mem _)
  | braced _ hshape =>
    have hkinds : ∀ kind ∈ [TokenKind.date, .time, .illegal .malformedDateTime],
        kind.isCut = false := by decide
    exact hkinds _ (hshape ▸ bracedKind_mem _)
  | openString | openComment => exact absurd rfl h
  | _ => rfl

theorem mem_of_pair? {d : Char} {m : Mark} (h : pair? c d = some m) : d ∈ ['=', '&', '|'] := by
  unfold pair? at h
  split at h <;> first | decide | cases h

/-- In front of a delimiter every piece ends, unless nothing but the end of the line or of the text
ends it. Behind an open brace the delimiter must be no blank, which could stand in the brace. -/
theorem Longest.delimited (h : Longest x) (hline : x.kind ≠ .lineComment)
    (hcut : x.kind.isCut = false)
    (hopen : x.piece.opensBrace → ∀ d ∈ after.head?, isBraced d = false) (hd : Delimited after) :
    Longest { x with rest := after } := by
  have hbrace : ∀ d ∈ after.head?, d ≠ '\x7d' := by
    rintro _ hmem rfl
    exact absurd (hd _ hmem) (by decide)
  have hpair {c : Char} : ∀ d ∈ after.head?, pair? c d = none := by
    intro d hmem
    refine Option.eq_none_iff_forall_ne_some.mpr fun m hm => ?_
    have hdelimiters : delimiters.all (· ∉ ['=', '&', '|']) := by decide
    exact of_decide_eq_true (List.all_eq_true.mp hdelimiters d (hd d hmem)) (mem_of_pair? hm)
  have hslash : ∀ d ∈ after.head?, d ∉ ['/', '*'] := by
    have hdelimiters : delimiters.all (· ∉ ['/', '*']) := by decide
    exact fun d hmem => of_decide_eq_true (List.all_eq_true.mp hdelimiters d (hd d hmem))
  cases h with
  | word hstart hparts _ hkind => exact .word hstart hparts (hd.stops (by decide)) hkind
  | int hc hdigits _ _ =>
    refine .int hc hdigits (hd.stops (by decide)) ?_
    rintro d tail rfl
    exact absurd (hd '.' rfl) (by decide)
  | float hc hdigits hfirst hpart _ =>
    exact .float hc hdigits hfirst hpart (hd.stops (by decide))
  | string hclosed => exact .string hclosed
  | openString | openComment => cases hcut
  | lineComment => exact absurd rfl hline
  | blockComment hclosed => exact .blockComment hclosed
  | braced hinner hshape => exact .braced hinner hshape
  | lbrace _ => exact .lbrace fun d hmem => ⟨hopen rfl d hmem, hbrace d hmem⟩
  | openBrace hinner hne _ =>
    refine .openBrace hinner hne fun d hmem => ⟨hopen ?_ d hmem, hbrace d hmem⟩
    simp [Piece.opensBrace, piece, literal]
  | pair hmark => exact .pair hmark
  | single hmark _ _ => exact .single hmark hpair fun _ => hslash
  | stray hword hdigit hother hmark _ => exact .stray hword hdigit hother hmark hpair

/-- So it is read again from its text there. -/
theorem read_again (hline : (read c rest).kind ≠ .lineComment)
    (hcut : (read c rest).kind.isCut = false)
    (hopen : (read c rest).piece.opensBrace → ∀ d ∈ after.head?, isBraced d = false)
    (hd : Delimited after) :
    ∃ body, (read c rest).piece.text = c :: body ∧
      read c (body ++ after) = { read c rest with rest := after } := by
  have htext := (read_splits c rest).text_eq
  have hlongest := (read_longest c rest).delimited hline hcut hopen hd
  exact ⟨_, (read_piece_text c rest).trans htext, read_of_longest hlongest⟩

end Lexeme

/-- A mark and a keyword in the spelling that is printed. -/
def Mark.piece (m : Mark) : Piece := (.mark m, m.text)

def Keyword.piece (w : Keyword) : Piece := (.keyword w, w.text)

namespace Lexeme

theorem not_isSpace_of_isWordStart {c : Char} (h : isWordStart c) : isSpace c = false := by
  have hspaces : [' ', '\t', '\r', '\n', '\x0b', '\x0c'].all (!isWordStart ·) := by decide
  refine decide_eq_false fun hmem => ?_
  have hc := List.all_eq_true.mp hspaces c hmem
  rw [h] at hc
  cases hc

theorem lineComment_of_kind {c : Char} {rest : List Char}
    (hk : (read c rest).kind = .lineComment) : c = '/' ∧ ∃ body, rest = '/' :: body := by
  have happend := (read_splits c rest).append
  have hlongest := read_longest c rest
  generalize read c rest = x at hk happend hlongest
  cases hlongest with
  | lineComment =>
    obtain ⟨rfl, rfl⟩ := List.cons.inj happend
    exact ⟨rfl, _, rfl⟩
  | word _ _ _ hclassify => exact absurd (hclassify.trans hk) (Word.classify_ne (by decide) _)
  | braced _ hshape => exact absurd (hshape.trans hk) (bracedKind_ne (by decide) _)
  | _ => cases hk

end Lexeme

section Printed

variable {after : List Char} {ps : List Piece}

theorem Reads.of_read {c : Char} {rest : List Char} {x : Lexeme} (hc : Lexeme.isSpace c = false)
    (hread : Lexeme.read c rest = x) (h : Reads x.rest ps) : Reads (c :: rest) (x.piece :: ps) := by
  subst hread
  exact .lexeme hc h

/-- A piece that was read is read from its text, in front of what cannot continue it. -/
theorem reads_again {p : Piece} (hp : p.IsRead) (hline : p.1 ≠ .lineComment)
    (hcut : p.1.isCut = false)
    (hopen : p.opensBrace → ∀ d ∈ after.head?, Lexeme.isBraced d = false) (hd : Delimited after)
    (h : Reads after ps) : Reads (p.text ++ after) (p :: ps) := by
  obtain ⟨c, rest, hc, rfl⟩ := hp
  obtain ⟨body, htext, hread⟩ := Lexeme.read_again hline hcut hopen hd
  have hreads := Reads.of_read hc hread h
  rw [htext]
  exact hreads

theorem reads_kept {p : Piece} (hp : p.IsRead) (hk : p.1.isKept) (hd : Delimited after)
    (h : Reads after ps) : Reads (p.text ++ after) (p :: ps) := by
  obtain ⟨kind, literal⟩ := p
  cases kind with
  | lineComment | illegal | mark | keyword | eof => cases hk
  | _ => exact reads_again hp (by simp) rfl (fun hopen => by simp [Piece.opensBrace] at hopen) hd h

theorem reads_lineComment {p : Piece} (hp : p.IsRead) (hk : p.1 = .lineComment)
    (hend : ∀ d ∈ after.head?, d = '\n') (h : Reads after ps) :
    Reads (p.2.toList ++ after) (p :: ps) := by
  obtain ⟨c, rest, hc, rfl⟩ := hp
  obtain ⟨rfl, rest, rfl⟩ := Lexeme.lineComment_of_kind hk
  let text := rest.takeWhile (· ≠ '\n')
  have hline : '\n' ∉ text := fun hmem => by simpa using List.mem_takeWhile_imp hmem
  have hread : Lexeme.read '/' ('/' :: text ++ after) =
      { Lexeme.ofLineComment rest with rest := after } := Lexeme.ofLineComment_append hline hend
  have htext : (Lexeme.ofLineComment rest).piece.2.toList = '/' :: '/' :: text :=
    String.toList_ofList
  have hreads := Reads.of_read hc hread h
  rw [show Lexeme.read '/' ('/' :: rest) = Lexeme.ofLineComment rest from rfl, htext]
  exact hreads

theorem reads_word (word : String) {c : Char} {body : List Char} (htext : word.toList = c :: body)
    (hstart : Lexeme.isWordStart c) (hbody : body.all Lexeme.isWordPart) (hd : Delimited after)
    (h : Reads after ps) :
    Reads (word.toList ++ after) ((Word.classify word, word) :: ps) := by
  have hword : String.ofList (c :: body) = word := by rw [← htext, String.ofList_toList]
  have hread := (Lexeme.read_word hstart _).trans
    (Lexeme.ofWord_append (List.all_eq_true.mp hbody) (hd.stops (by decide)))
  rw [hword] at hread
  have hpiece : Lexeme.piece ⟨Word.classify word, c :: body, after⟩ =
      (Word.classify word, word) := by
    have hne : Lexeme.kind ⟨Word.classify word, c :: body, after⟩ ≠ .string := by
      dsimp only
      exact Word.classify_ne_string word
    rw [Lexeme.piece, Lexeme.literal_eq_text hne, hword]
  rw [htext, ← hpiece]
  exact .of_read (Lexeme.not_isSpace_of_isWordStart hstart) hread h

theorem reads_keyword (w : Keyword) (hd : Delimited after) (h : Reads after ps) :
    Reads (w.text.toList ++ after) (w.piece :: ps) := by
  cases w with
  | varWord => exact reads_word "var" rfl (by decide) (by decide) hd h
  | overWord => exact reads_word "over" rfl (by decide) (by decide) hd h
  | whereWord => exact reads_word "where" rfl (by decide) (by decide) hd h
  | orderWord => exact reads_word "order" rfl (by decide) (by decide) hd h
  | byWord => exact reads_word "by" rfl (by decide) (by decide) hd h
  | ascWord => exact reads_word "asc" rfl (by decide) (by decide) hd h
  | descWord => exact reads_word "desc" rfl (by decide) (by decide) hd h
  | aliasWord => exact reads_word "alias" rfl (by decide) (by decide) hd h
  | inWord => exact reads_word "in" rfl (by decide) (by decide) hd h
  | setWord => exact reads_word "set" rfl (by decide) (by decide) hd h
  | nullWord => exact reads_word "null" rfl (by decide) (by decide) hd h
  | trueWord => exact reads_word "true" rfl (by decide) (by decide) hd h
  | falseWord => exact reads_word "false" rfl (by decide) (by decide) hd h

/-- The marks that no character joins. -/
def Mark.isFirm : Mark → Bool
  | .eq | .minus | .comma | .semicolon | .lparen | .rparen | .lbracket | .rbracket | .dollar => true
  | _ => false

theorem reads_firm {m : Mark} (hm : m.isFirm) (h : Reads after ps) :
    Reads (m.text.toList ++ after) (m.piece :: ps) := by
  have hread {c : Char} {m : Mark} (hc : Lexeme.read c after = Lexeme.ofMark c after)
      (hpair : ∀ d, Lexeme.pair? c d = none) (hsingle : Lexeme.single? c = some m) :
      Lexeme.read c after = ⟨.mark m, [c], after⟩ := by
    have hofSingle : Lexeme.ofSingle c after = ⟨.mark m, [c], after⟩ := by
      rw [Lexeme.ofSingle, hsingle]
    rw [hc]
    cases after with
    | nil => exact hofSingle
    | cons d after => rwa [Lexeme.ofMark, hpair]
  cases m with
  | eq => exact .of_read rfl (hread (c := '=') rfl (fun _ => rfl) rfl) h
  | minus => exact .of_read rfl (hread (c := '-') rfl (fun _ => rfl) rfl) h
  | comma => exact .of_read rfl (hread (c := ',') rfl (fun _ => rfl) rfl) h
  | semicolon => exact .of_read rfl (hread (c := ';') rfl (fun _ => rfl) rfl) h
  | lparen => exact .of_read rfl (hread (c := '(') rfl (fun _ => rfl) rfl) h
  | rparen => exact .of_read rfl (hread (c := ')') rfl (fun _ => rfl) rfl) h
  | lbracket => exact .of_read rfl (hread (c := '[') rfl (fun _ => rfl) rfl) h
  | rbracket => exact .of_read rfl (hread (c := ']') rfl (fun _ => rfl) rfl) h
  | dollar => exact .of_read rfl (hread (c := '$') rfl (fun _ => rfl) rfl) h
  | _ => cases hm

/-- Operators between operands are printed with a blank after them. -/
theorem reads_operator (op : BinaryOp) (h : Reads (' ' :: after) ps) :
    Reads (op.text.toList ++ ' ' :: after) (op.mark.piece :: ps) := by
  cases op with
  | add => exact .of_read (c := '+') rfl rfl h
  | sub => exact .of_read (c := '-') rfl rfl h
  | mul => exact .of_read (c := '*') rfl rfl h
  | div => exact .of_read (c := '/') rfl rfl h
  | mod => exact .of_read (c := '%') rfl rfl h
  | gt => exact .of_read (c := '>') rfl rfl h
  | lt => exact .of_read (c := '<') rfl rfl h
  | gte => exact .of_read (c := '>') rfl rfl h
  | lte => exact .of_read (c := '<') rfl rfl h
  | eq => exact .of_read (c := '=') rfl rfl h
  | neq => exact .of_read (c := '!') rfl rfl h
  | and => exact .of_read (c := '&') rfl rfl h
  | or => exact .of_read (c := '|') rfl rfl h

/-- A text that starts with `=` is read as an equals sign first. -/
theorem Reads.eq_of_cons {p : Piece} (h : Reads ('=' :: after) (p :: ps)) : p.1 = .mark .eq := by
  cases h with
  | space hc _ => cases hc
  | lexeme _ _ => cases after <;> rfl

/-- In front of anything that is not read as `=` first, `!` stands for itself. -/
theorem reads_bang {p : Piece} (hp : p.1 ≠ .mark .eq) (h : Reads after (p :: ps)) :
    Reads ('!' :: after) (Mark.bang.piece :: p :: ps) := by
  refine .of_read (x := ⟨.mark .bang, ['!'], after⟩) rfl ?_ h
  cases after with
  | nil => cases h
  | cons d after =>
    have hd : d ≠ '=' := by
      rintro rfl
      exact hp h.eq_of_cons
    have hpair : Lexeme.pair? '!' d = none := by
      unfold Lexeme.pair?
      split <;> simp_all
    change Lexeme.ofMark '!' (d :: after) = _
    rw [Lexeme.ofMark, hpair]
    rfl

end Printed

end PayFormula
