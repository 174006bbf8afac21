import PayFormula.Proofs.Token.Lexeme
import PayFormula.Proofs.Token.Word

/-!
# Longest pieces

What a lexeme is, said without reading it: each kind has its texts, and a text of
that kind ends where it can go on no further. A word ends in front of what is no
part of one, a string with its quote or with the whole text, a mark in front of
what would make another mark of it.

Reading yields such lexemes, and each of them is read from its text in front of
what is left. So whether a lexeme is read again in front of something else is a
question of what stands there: nothing at all ends every lexeme.
-/
namespace PayFormula

/-- A run of characters ends in front of the first one that is not of its class. -/
theorem takeWhile_append_stop {p : Char → Bool} {front back : List Char} (hfront : ∀ c ∈ front, p c)
    (hback : ∀ c ∈ back.head?, p c = false) :
    (front ++ back).takeWhile p = front ∧ (front ++ back).dropWhile p = back := by
  rw [List.takeWhile_append_of_pos hfront, List.dropWhile_append_of_pos hfront]
  cases back with
  | nil => simp
  | cons c back =>
    have hc := hback c rfl
    simp [hc]

namespace Lexeme

/-- What follows a run of characters is not of its class. -/
theorem head?_dropWhile_not (p : Char → Bool) (text : List Char) :
    ∀ d ∈ (text.dropWhile p).head?, p d = false := by
  intro d hd
  have hhead := List.head?_dropWhile_not p text
  rw [show (text.dropWhile p).head? = some d from hd] at hhead
  simpa using hhead

/-- A lexeme that goes on as far as it can. -/
inductive Longest : Lexeme → Prop
  | word {c : Char} {kind : TokenKind} {body after : List Char} (start : isWordStart c)
      (parts : ∀ d ∈ body, isWordPart d) (stop : ∀ d ∈ after.head?, isWordPart d = false)
      (classify : Word.classify (String.ofList (c :: body)) = kind) :
      Longest ⟨kind, c :: body, after⟩
  | int {c : Char} {body after : List Char} (start : c.isDigit) (digits : ∀ d ∈ body, d.isDigit)
      (stop : ∀ d ∈ after.head?, d.isDigit = false)
      (point : ∀ d tail, after = '.' :: d :: tail → d.isDigit = false) :
      Longest ⟨.int, c :: body, after⟩
  | float {c d : Char} {body part after : List Char} (start : c.isDigit)
      (digits : ∀ d ∈ body, d.isDigit) (first : d.isDigit) (part_digits : ∀ d ∈ part, d.isDigit)
      (stop : ∀ d ∈ after.head?, d.isDigit = false) :
      Longest ⟨.float, c :: body ++ '.' :: d :: part, after⟩
  | string {body after : List Char} (closed : '"' ∉ body) :
      Longest ⟨.string, '"' :: body ++ ['"'], after⟩
  | openString {body : List Char} (unclosed : '"' ∉ body) :
      Longest ⟨.illegal .unterminatedString, '"' :: body, []⟩
  | lineComment {body after : List Char} (line : '\n' ∉ body) (stop : ∀ d ∈ after.head?, d = '\n') :
      Longest ⟨.lineComment, '/' :: '/' :: body, after⟩
  | blockComment {body after : List Char} (closed : splitComment? body = some (body, [])) :
      Longest ⟨.blockComment, '/' :: '*' :: body, after⟩
  | openComment {body : List Char} (unclosed : splitComment? body = none) :
      Longest ⟨.illegal .unterminatedComment, '/' :: '*' :: body, []⟩
  | braced {kind : TokenKind} {body after : List Char} (inner : ∀ d ∈ body, isBraced d)
      (shape : bracedKind ('\x7b' :: body ++ ['\x7d']) = kind) :
      Longest ⟨kind, '\x7b' :: body ++ ['\x7d'], after⟩
  | lbrace {after : List Char} (stop : ∀ d ∈ after.head?, isBraced d = false ∧ d ≠ '\x7d') :
      Longest ⟨.mark .lbrace, ['\x7b'], after⟩
  | openBrace {body after : List Char} (inner : ∀ d ∈ body, isBraced d) (nonempty : body ≠ [])
      (stop : ∀ d ∈ after.head?, isBraced d = false ∧ d ≠ '\x7d') :
      Longest ⟨.illegal .illegalCharacter, '\x7b' :: body, after⟩
  | pair {c d : Char} {m : Mark} {after : List Char} (mark : pair? c d = some m) :
      Longest ⟨.mark m, [c, d], after⟩
  | single {c : Char} {m : Mark} {after : List Char} (mark : single? c = some m)
      (stop : ∀ d ∈ after.head?, pair? c d = none)
      (slash : c = '/' → ∀ d ∈ after.head?, d ∉ ['/', '*']) : Longest ⟨.mark m, [c], after⟩
  | stray {c : Char} {after : List Char} (word : isWordStart c = false) (digit : c.isDigit = false)
      (opening : c ∉ ['"', '\x7b']) (mark : single? c = none)
      (stop : ∀ d ∈ after.head?, pair? c d = none) :
      Longest ⟨.illegal .illegalCharacter, [c], after⟩

variable {c d : Char} {kind : TokenKind} {m : Mark} {body part rest after : List Char}

/-! ### Lexemes are read -/

theorem read_word (h : isWordStart c) (rest : List Char) : read c rest = ofWord c rest := if_pos h

theorem read_number (hw : ¬ isWordStart c) (h : c.isDigit) (rest : List Char) :
    read c rest = ofNumber c rest := (if_neg hw).trans (if_pos h)

theorem read_mark (hword : ¬ isWordStart c) (hdigit : ¬ c.isDigit) (hquote : c ≠ '"')
    (hbrace : c ≠ '\x7b') (hslash : c = '/' → ∀ d ∈ rest.head?, d ∉ ['/', '*']) :
    read c rest = ofMark c rest := by
  fun_cases read c rest with
  | case1 => contradiction
  | case2 => contradiction
  | case3 => exact absurd rfl hquote
  | case4 => exact absurd (by decide) (hslash rfl '/' rfl)
  | case5 => exact absurd (by decide) (hslash rfl '*' rfl)
  | case6 => exact absurd rfl hbrace
  | case7 => rfl

theorem not_isDigit_of_isWordStart (h : isWordStart c) : c.isDigit = false := by
  have hval : 65 ≤ c.val.toNat := by
    delta isWordStart Char.isAlpha Char.isUpper Char.isLower at h
    simp only [Bool.or_eq_true, Bool.and_eq_true, decide_eq_true_eq, beq_iff_eq, ge_iff_le,
      UInt32.le_iff_toNat_le] at h
    rcases h with (⟨h, -⟩ | ⟨h, -⟩) | rfl
    · exact h
    · exact le_trans (by decide) h
    · decide
  simp only [Char.isDigit, Bool.and_eq_false_iff, decide_eq_false_iff_not, ge_iff_le,
    UInt32.le_iff_toNat_le]
  right
  change ¬ c.val.toNat ≤ 57
  omega

theorem read_digit (h : c.isDigit) (rest : List Char) : read c rest = ofNumber c rest :=
  read_number (fun hstart => by simp [not_isDigit_of_isWordStart hstart] at h) h rest

theorem ofWord_append (hbody : ∀ d ∈ body, isWordPart d)
    (hstop : ∀ d ∈ after.head?, isWordPart d = false) :
    ofWord c (body ++ after) =
      ⟨Word.classify (String.ofList (c :: body)), c :: body, after⟩ := by
  obtain ⟨ht, hdrop⟩ := takeWhile_append_stop hbody hstop
  rw [ofWord, ht, hdrop]

theorem ofWord_kind (c : Char) (rest : List Char) :
    (ofWord c rest).kind = Word.classify (String.ofList (ofWord c rest).text) := by
  unfold ofWord
  dsimp only

theorem ofNumber_int (hbody : ∀ d ∈ body, d.isDigit) (hstop : ∀ d ∈ after.head?, d.isDigit = false)
    (hpoint : ∀ d tail, after = '.' :: d :: tail → d.isDigit = false) :
    ofNumber c (body ++ after) = ⟨.int, c :: body, after⟩ := by
  obtain ⟨ht, hdrop⟩ := takeWhile_append_stop hbody hstop
  rw [ofNumber, ht, hdrop]
  split
  · rename_i d tail
    rw [if_neg (by rw [hpoint d tail rfl]; simp)]
  · rfl

theorem ofNumber_float (hbody : ∀ d ∈ body, d.isDigit) (hd : d.isDigit)
    (hpart : ∀ d ∈ part, d.isDigit)
    (hstop : ∀ d ∈ after.head?, d.isDigit = false) :
    ofNumber c (body ++ '.' :: d :: (part ++ after)) =
      ⟨.float, c :: body ++ '.' :: d :: part, after⟩ := by
  obtain ⟨ht, hdrop⟩ := @takeWhile_append_stop _ _ ('.' :: d :: (part ++ after)) hbody (by simp)
  obtain ⟨ht', hdrop'⟩ := takeWhile_append_stop hpart hstop
  rw [ofNumber, ht, hdrop]
  simp only [hd, ↓reduceIte, ht', hdrop']

theorem ofString_closed (hbody : '"' ∉ body) :
    ofString (body ++ '"' :: after) = ⟨.string, '"' :: body ++ ['"'], after⟩ := by
  have hne : ∀ d ∈ body, (decide (d ≠ '"')) = true := fun d hd =>
    decide_eq_true fun heq => hbody (heq ▸ hd)
  obtain ⟨ht, hdrop⟩ := @takeWhile_append_stop _ _ ('"' :: after) hne (by simp)
  rw [ofString, ht, hdrop]

theorem ofString_open (hbody : '"' ∉ body) :
    ofString body = ⟨.illegal .unterminatedString, '"' :: body, []⟩ := by
  have hne : ∀ d ∈ body, (decide (d ≠ '"')) = true := fun d hd =>
    decide_eq_true fun heq => hbody (heq ▸ hd)
  obtain ⟨ht, hdrop⟩ := @takeWhile_append_stop _ _ [] hne (by simp)
  rw [List.append_nil] at ht hdrop
  rw [ofString, ht, hdrop]

theorem ofLineComment_append (hbody : '\n' ∉ body) (hend : ∀ d ∈ after.head?, d = '\n') :
    ofLineComment (body ++ after) = ⟨.lineComment, '/' :: '/' :: body, after⟩ := by
  have hne : ∀ d ∈ body, (decide (d ≠ '\n')) = true := fun d hd =>
    decide_eq_true fun heq => hbody (heq ▸ hd)
  obtain ⟨ht, hdrop⟩ := takeWhile_append_stop hne fun d hd => by simp [hend d hd]
  rw [ofLineComment, ht, hdrop]

/-- A comment that ends somewhere ends there whatever follows. -/
theorem splitComment?_again {text : List Char} (h : splitComment? text = some (body, rest))
    (after : List Char) : splitComment? (body ++ after) = some (body, after) := by
  fun_induction splitComment? text generalizing body with
  | case1 rest =>
    cases h
    rfl
  | case2 c rest hne ih =>
    obtain ⟨⟨front, back⟩, hsplit, heq⟩ := Option.map_eq_some_iff.mp h
    cases heq
    have hfront := splitComment?_append hsplit
    have hpos : front ≠ [] := by
      rintro rfl
      fun_cases splitComment? rest <;> simp_all [splitComment?]
    rw [List.cons_append, splitComment?.eq_2, ih hsplit]
    · rfl
    · intro tail hc htail
      cases front with
      | nil => exact hpos rfl
      | cons d front =>
        obtain ⟨rfl, -⟩ := List.cons.inj htail
        exact hne _ hc hfront.symm
  | case3 => cases h

theorem ofBrace_closed (hbody : ∀ d ∈ body, isBraced d) :
    ofBrace (body ++ '\x7d' :: after) =
      ⟨bracedKind ('\x7b' :: body ++ ['\x7d']), '\x7b' :: body ++ ['\x7d'], after⟩ := by
  obtain ⟨ht, hdrop⟩ := @takeWhile_append_stop _ _ ('\x7d' :: after) hbody (by simp [isBraced])
  rw [ofBrace, ht, hdrop]
  rfl

theorem ofBrace_open (hbody : ∀ d ∈ body, isBraced d)
    (hstop : ∀ d ∈ after.head?, isBraced d = false ∧ d ≠ '\x7d') :
    ofBrace (body ++ after) =
      ⟨if body.isEmpty then .mark .lbrace else .illegal .illegalCharacter,
        '\x7b' :: body, after⟩ := by
  obtain ⟨ht, hdrop⟩ := takeWhile_append_stop hbody fun d hd => (hstop d hd).1
  rw [ofBrace, ht, hdrop]
  split
  · exact absurd rfl (hstop _ rfl).2
  · split
    · rename_i hempty
      rw [List.isEmpty_iff.mp hempty]
    · rfl

/-- What begins a mark begins nothing else. -/
theorem isPlain_of_single? (h : single? c = some m) :
    isWordStart c = false ∧ c.isDigit = false ∧ c ≠ '"' ∧ c ≠ '\x7b' := by
  unfold single? at h
  split at h <;> first | decide | cases h

theorem isPlain_of_pair? (h : pair? c d = some m) :
    isWordStart c = false ∧ c.isDigit = false ∧ c ≠ '"' ∧ c ≠ '\x7b' ∧ c ≠ '/' := by
  unfold pair? at h
  split at h <;> first | decide | cases h

theorem ofMark_single (h : ∀ d ∈ rest.head?, pair? c d = none) :
    ofMark c rest = ofSingle c rest := by
  cases rest with
  | nil => rfl
  | cons d rest => rw [ofMark, h d rfl]

/-- Such a lexeme is read from its text in front of what is left. -/
theorem Longest.read_eq {x : Lexeme} (h : Longest x) :
    ∃ c body, x.text = c :: body ∧ read c (body ++ x.rest) = x := by
  cases h with
  | word hstart hbody hstop hkind =>
    refine ⟨_, _, rfl, ?_⟩
    rw [read_word hstart, ofWord_append hbody hstop, hkind]
  | int hc hbody hstop hpoint =>
    refine ⟨_, _, rfl, ?_⟩
    rw [read_digit hc, ofNumber_int hbody hstop hpoint]
  | @float c d body part after hc hbody hd hpart hstop =>
    refine ⟨c, body ++ '.' :: d :: part, rfl, ?_⟩
    rw [read_digit hc, List.append_assoc]
    exact ofNumber_float hbody hd hpart hstop
  | @string body after hbody =>
    refine ⟨'"', body ++ ['"'], rfl, ?_⟩
    rw [List.append_assoc]
    exact ofString_closed hbody
  | openString hbody =>
    refine ⟨_, _, rfl, ?_⟩
    rw [List.append_nil]
    exact ofString_open hbody
  | lineComment hbody hend => exact ⟨_, _, rfl, ofLineComment_append hbody hend⟩
  | @blockComment body after hsplit =>
    refine ⟨_, _, rfl, ?_⟩
    change ofBlockComment (body ++ after) = _
    rw [ofBlockComment, splitComment?_again hsplit]
  | @openComment body hsplit =>
    refine ⟨_, _, rfl, ?_⟩
    change ofBlockComment (body ++ []) = _
    rw [List.append_nil, ofBlockComment, hsplit]
  | @braced kind body after hbody hkind =>
    refine ⟨'\x7b', body ++ ['\x7d'], rfl, ?_⟩
    rw [List.append_assoc, ← hkind]
    exact ofBrace_closed hbody
  | lbrace hstop => exact ⟨_, _, rfl, ofBrace_open (List.forall_mem_nil _) hstop⟩
  | openBrace hbody hne hstop =>
    have hread := ofBrace_open hbody hstop
    rw [if_neg (by simpa using hne)] at hread
    exact ⟨_, _, rfl, hread⟩
  | @pair c d m after hpair =>
    refine ⟨_, _, rfl, ?_⟩
    obtain ⟨hword, hdigit, hquote, hbrace, hslash⟩ := isPlain_of_pair? hpair
    rw [read_mark (by simp [hword]) (by simp [hdigit]) hquote hbrace fun hc => absurd hc hslash]
    simp only [List.cons_append, List.nil_append, ofMark, hpair]
  | single hsingle hpair hslash =>
    refine ⟨_, _, rfl, ?_⟩
    obtain ⟨hword, hdigit, hquote, hbrace⟩ := isPlain_of_single? hsingle
    rw [List.nil_append, read_mark (by simp [hword]) (by simp [hdigit]) hquote hbrace hslash,
      ofMark_single hpair, ofSingle, hsingle]
  | @stray c after hword hdigit hother hsingle hpair =>
    refine ⟨_, _, rfl, ?_⟩
    obtain ⟨hquote, hbrace⟩ : c ≠ '"' ∧ c ≠ '\x7b' := by simpa using hother
    have hslash : c = '/' → ∀ d ∈ after.head?, d ∉ ['/', '*'] := by
      rintro rfl
      cases hsingle
    rw [List.nil_append, read_mark (by simp [hword]) (by simp [hdigit]) hquote hbrace hslash,
      ofMark_single hpair, ofSingle, hsingle]

/-! ### What is read is a lexeme -/

theorem ofNumber_longest (hc : c.isDigit) (rest : List Char) : Longest (ofNumber c rest) := by
  have hdigits (text : List Char) : ∀ d ∈ text.takeWhile Char.isDigit, d.isDigit :=
    fun _ hmem => List.mem_takeWhile_imp hmem
  have hstop := head?_dropWhile_not Char.isDigit rest
  unfold ofNumber
  split
  · rename_i d part heq
    split
    · rename_i hd
      exact .float hc (hdigits rest) hd (hdigits part) (head?_dropWhile_not _ _)
    · rename_i hd
      refine .int hc (hdigits rest) (heq ▸ hstop) fun e tail htail => ?_
      obtain ⟨-, htail⟩ := List.cons.inj htail
      obtain ⟨rfl, -⟩ := List.cons.inj htail
      simpa using hd
  · rename_i hpoint
    exact .int hc (hdigits rest) hstop fun d tail htail => absurd htail (hpoint d tail)

theorem ofString_longest (rest : List Char) : Longest (ofString rest) := by
  have hbody : '"' ∉ rest.takeWhile (· ≠ '"') := fun hmem => by
    simpa using List.mem_takeWhile_imp hmem
  have hstop := head?_dropWhile_not (· ≠ '"') rest
  unfold ofString
  split
  · rename_i quote after heq
    rw [heq] at hstop
    obtain rfl : quote = '"' := by simpa using hstop quote rfl
    exact .string hbody
  · exact .openString hbody

theorem ofBlockComment_longest (rest : List Char) : Longest (ofBlockComment rest) := by
  unfold ofBlockComment
  split
  · rename_i body after hsplit
    have hagain := splitComment?_again hsplit []
    rw [List.append_nil] at hagain
    exact .blockComment hagain
  · exact .openComment ‹_›

theorem ofLineComment_longest (rest : List Char) : Longest (ofLineComment rest) := by
  refine .lineComment (fun hmem => ?_) fun d hd => ?_
  · simpa using List.mem_takeWhile_imp hmem
  · simpa using head?_dropWhile_not (· ≠ '\n') rest d hd

theorem ofBrace_longest (rest : List Char) : Longest (ofBrace rest) := by
  have hbody : ∀ d ∈ rest.takeWhile isBraced, isBraced d :=
    fun _ hmem => List.mem_takeWhile_imp hmem
  have hstop := head?_dropWhile_not isBraced rest
  unfold ofBrace
  split
  · exact .braced hbody rfl
  · rename_i hopen
    have hend : ∀ d ∈ (rest.dropWhile isBraced).head?, isBraced d = false ∧ d ≠ '\x7d' := by
      intro d hd
      refine ⟨hstop d hd, ?_⟩
      rintro rfl
      obtain ⟨tail, heq⟩ := List.head?_eq_some_iff.mp hd
      exact hopen tail heq
    dsimp only
    split
    · exact .lbrace hend
    · rename_i hne
      exact .openBrace hbody (by simpa using hne) hend

theorem ofSingle_longest (hword : ¬ isWordStart c) (hdigit : ¬ c.isDigit) (hquote : c ≠ '"')
    (hbrace : c ≠ '\x7b') (hpair : ∀ d ∈ rest.head?, pair? c d = none)
    (hslash : c = '/' → ∀ d ∈ rest.head?, d ∉ ['/', '*']) : Longest (ofSingle c rest) := by
  unfold ofSingle
  split
  · exact .single ‹_› hpair hslash
  · exact .stray (by simpa using hword) (by simpa using hdigit) (by simp [hquote, hbrace]) ‹_› hpair

theorem ofMark_longest (hword : ¬ isWordStart c) (hdigit : ¬ c.isDigit) (hquote : c ≠ '"')
    (hbrace : c ≠ '\x7b') (hslash : c = '/' → ∀ d ∈ rest.head?, d ∉ ['/', '*']) :
    Longest (ofMark c rest) := by
  cases rest with
  | nil => exact ofSingle_longest hword hdigit hquote hbrace (fun d hd => by cases hd) hslash
  | cons d rest =>
    rw [ofMark]
    split
    · exact .pair ‹_›
    · rename_i hpair
      refine ofSingle_longest hword hdigit hquote hbrace (fun e he => ?_) hslash
      cases he
      exact hpair

/-- What is read goes on as far as it can. -/
theorem read_longest (c : Char) (rest : List Char) : Longest (read c rest) := by
  fun_cases read c rest with
  | case1 =>
    rename_i hword
    exact .word hword (fun _ hmem => List.mem_takeWhile_imp hmem) (head?_dropWhile_not _ _) rfl
  | case2 =>
    rename_i hdigit
    exact ofNumber_longest hdigit rest
  | case3 => exact ofString_longest _
  | case4 => exact ofLineComment_longest _
  | case5 => exact ofBlockComment_longest _
  | case6 => exact ofBrace_longest _
  | case7 =>
    rename_i hquote hbrace hword hdigit hline hblock
    refine ofMark_longest hword hdigit hquote hbrace fun hc d hd hmem => ?_
    obtain ⟨tail, heq⟩ := List.head?_eq_some_iff.mp hd
    rcases List.mem_cons.mp hmem with rfl | hmem
    · exact hline tail hc heq
    · rw [List.mem_singleton.mp hmem] at heq
      exact hblock tail hc heq

/-! ### Reading once more -/

theorem read_of_longest (h : Longest { read c rest with rest := after }) :
    read c ((read c rest).text.tail ++ after) = { read c rest with rest := after } := by
  obtain ⟨d, body, htext, hread⟩ := h.read_eq
  obtain ⟨rfl, rfl⟩ := List.cons.inj ((read_splits c rest).text_eq.symm.trans htext)
  exact hread

/-- Nothing continues a lexeme at the end of a text. -/
theorem Longest.alone {x : Lexeme} (h : Longest x) : Longest { x with rest := [] } := by
  have hnone {p : Char → Prop} : ∀ d ∈ ([] : List Char).head?, p d := fun _ hd => by cases hd
  cases h with
  | word hstart hparts _ hkind => exact .word hstart hparts hnone hkind
  | int hc hdigits _ _ => exact .int hc hdigits hnone fun _ _ heq => by cases heq
  | float hc hdigits hd hpart _ => exact .float hc hdigits hd hpart hnone
  | string hclosed => exact .string hclosed
  | openString hopen => exact .openString hopen
  | lineComment hline _ => exact .lineComment hline hnone
  | blockComment hclosed => exact .blockComment hclosed
  | openComment hopen => exact .openComment hopen
  | braced hinner hshape => exact .braced hinner hshape
  | lbrace _ => exact .lbrace hnone
  | openBrace hinner hne _ => exact .openBrace hinner hne hnone
  | pair hmark => exact .pair hmark
  | single hmark _ _ => exact .single hmark hnone fun _ => hnone
  | stray hword hdigit hother hmark _ => exact .stray hword hdigit hother hmark hnone

theorem read_alone (c : Char) (rest : List Char) :
    read c (read c rest).text.tail = { read c rest with rest := [] } := by
  have hread := read_of_longest (read_longest c rest).alone
  rwa [List.append_nil] at hread

/-! ### Kinds -/

theorem bracedKind_mem (text : List Char) :
    bracedKind text ∈ [.date, .time, .illegal .malformedDateTime] := by
  unfold bracedKind
  repeat' split
  all_goals simp

theorem bracedKind_ne {kind : TokenKind} (h : kind ∉ [.date, .time, .illegal .malformedDateTime])
    (text : List Char) : bracedKind text ≠ kind := fun heq => h (heq ▸ bracedKind_mem text)

end Lexeme

end PayFormula
