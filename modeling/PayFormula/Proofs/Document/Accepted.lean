import PayFormula.Evaluate
import PayFormula.Proofs.Grammar.Names
import PayFormula.Proofs.Grammar.RoundTrip
import PayFormula.Proofs.Grammar.Unplaced
import PayFormula.Proofs.Token.Alone

/-!
# Accepted names

A new name is checked by reading it as a text of its own, and the parser checks
names token by token. The two agree. A name is accepted if it is shaped like one,
and neither the blank name nor reserved; such a name can be declared, and all names
that are read in a text are accepted.
-/
namespace PayFormula

open Grammar

variable {name : String}

/-- A word is a text of one token. -/
theorem Word.IsShaped.tokenize (h : Word.IsShaped name) :
    ∃ t, PayFormula.tokenize name = [t] ∧ t.byteLength = name.utf8ByteSize ∧
      t.kind = Word.classify name ∧ t.literal = name := by
  have hne : (Word.classify name, name).1 ≠ .string := Word.classify_ne_string name
  obtain ⟨t, ht, hpiece, hstart, hstop⟩ := Token.exists_tokenize (Word.isRead h)
  rw [Piece.text_of_ne hne, String.ofList_toList] at ht hstop
  refine ⟨t, ht, ?_, Token.kind_of_piece hpiece, Token.literal_of_piece hpiece⟩
  rw [Token.byteLength, hstart, hstop, Nat.sub_zero]

/-- Only words are accepted or found to be reserved. -/
theorem validateName_of_not_isShaped (h : ¬ Word.IsShaped name) :
    validateName name = .error (.invalidName name) := by
  have hreserved : ¬ Word.isReserved name := fun hreserved =>
    h (Word.isShaped_of_isReserved hreserved)
  have hident : Word.classify name = .ident :=
    Word.classify_eq_ident_iff.mpr (by simpa using hreserved)
  fun_cases validateName name with
  | case1 | case2 | case5 | case6 => rfl
  | case3 t htokens hlength hk _ =>
    have hname := (isIdentText_of_tokenize htokens hk (not_not.mp hlength)).1
    exact absurd (Lexeme.isWord_toList.mp (isIdentText_iff.mp hname).1) h
  | case4 => contradiction

/-- The check of a name, told by its shape alone. -/
theorem validateName_eq (name : String) : validateName name =
    if Word.isReserved name then .error (.reserved name)
    else if Word.IsShaped name ∧ name ≠ "_" then .ok () else .error (.invalidName name) := by
  by_cases hshape : Word.IsShaped name
  · obtain ⟨t, ht, hlength, hkind, hliteral⟩ := hshape.tokenize
    simp only [validateName, ht, hlength, hkind, hliteral, ne_eq, not_true_eq_false, ↓reduceIte]
    cases hreserved : Word.isReserved name with
    | false =>
      rw [if_pos (Word.classify_eq_ident_iff.mpr hreserved)]
      by_cases hblank : name = "_" <;> simp [hshape, hblank]
    | true =>
      have hident : Word.classify name ≠ .ident := fun hident => by
        simp [Word.classify_eq_ident_iff.mp hident] at hreserved
      rw [if_neg hident, if_pos hident, if_pos rfl]
  · have hreserved : ¬ Word.isReserved name := fun h => hshape (Word.isShaped_of_isReserved h)
    rw [if_neg hreserved, if_neg fun h => hshape h.1, validateName_of_not_isShaped hshape]

/-! ### Accepted names are declared -/

/-- A binding of a number declares one variable, also if it differs in places from the one here. -/
theorem declared_of_plain {p : Program} {b : Binding} {t : Token} {value : Double}
    (hvalue : b.value = .number t value)
    (h : p.statements.map Statement.plain = [.binding b.plain]) :
    (evaluate p).declared.map (·.name) = [b.name.name] := by
  obtain ⟨s, hs, hplain⟩ := List.map_eq_singleton_iff.mp h
  cases s with
  | binding b' =>
    obtain ⟨t', name', value', semicolon'⟩ := b'
    obtain ⟨-, hname, hnumber, -⟩ := BindingOf.mk.inj (Statement.binding.inj hplain)
    have hliteral : name'.plain.name = b.name.plain.name := congrArg Ident.name hname
    change name'.name = b.name.name at hliteral
    rw [hvalue] at hnumber
    cases value' with
    | number => simpa [evaluate, hs, Evaluation.ofStatement, Evaluate.binding, Evaluate.expr]
    | paren l block r => cases hnumber
    | block block => cases hnumber
    | _ => cases hnumber
  | expression | lineComment | blockComment => cases hplain

/-- A name that is accepted can be declared. -/
theorem parse_declaration (h : validateName name = .ok ()) :
    (parse ("var " ++ name ++ " = 1;")).errors = [] ∧
      (evaluate (parse ("var " ++ name ++ " = 1;")).program).declared.map (·.name) = [name] := by
  let v := unplacedKeyword .varWord
  let n := unplacedToken .ident name
  let eq := unplacedMark .eq
  let one := unplacedToken .int "1"
  let semicolon := unplacedMark .semicolon
  let eof := unplacedToken .eof ""
  obtain ⟨hident, hblank⟩ := of_validateName h
  have hone : Decimal.ofChars? one.literal.toList = some ⟨1, 0⟩ := by decide
  have hread : one.piece.IsRead := isRead_int (c := '1') rfl (List.forall_mem_nil _)
  have hname : n.piece.IsRead := isRead_name h
  let b : Binding := ⟨v, ⟨n⟩, .number one (Decimal.toDouble ⟨1, 0⟩), semicolon⟩
  have hbound :
      Bound (Expression Gaps.none nestingLimit) (v :: n :: eq :: [one] ++ [semicolon]) b :=
    .intro rfl (Token.isName_of_text rfl hident hblank) rfl
      (Primary.expression (.number (.inl rfl) hone) (by decide)) rfl
  have hlines : Lines False Gaps.none eof [v, n, eq, one, semicolon] [.binding b] :=
    .binding ⟨_, (List.append_nil _).symm, rfl⟩ hbound .nil
  have hprinted : "var " ++ name ++ " = 1;" =
      "\n".intercalate (Program.renderStatements [.binding b]) := by
    have hvalue : " = 1;" = " = " ++ ("1" ++ ";") := by decide
    change _ = "var " ++ name ++ " = " ++ "1" ++ ";"
    simp only [hvalue, String.append_assoc]
  have hl : Legible [v, n, eq, one, semicolon] := by simp [v, eq, semicolon, hname, hread]
  obtain ⟨herrors, hplain, -⟩ := parse_lines_printed hlines hl hprinted
  exact ⟨herrors, declared_of_plain rfl hplain⟩

/-! ### Names that are read are accepted -/

theorem validateName_of_isName {t : Token} (h : t.IsName) (hread : t.piece.IsRead) :
    validateName t.literal = .ok () := by
  have hshape : Word.IsShaped t.literal := (hread.word (.inl h.kind)).1
  rw [validateName_eq, if_neg (by simp [h.not_reserved]), if_pos ⟨hshape, h.not_blank⟩]

theorem validateName_of_mem_names {source : String} {i : Ident}
    (hi : i ∈ (Node.program (parse source).program).names) : validateName i.name = .ok () := by
  have hnamed := parse_named source
  have hmem := hnamed.sublist.subset (List.mem_map_of_mem hi)
  exact validateName_of_isName (hnamed.valid i hi) (tokenize_isRead (List.mem_of_mem_filter hmem))

/-- A name is accepted just if it is shaped like one and neither the blank name nor a keyword nor
the name of a function in any case, and reported as reserved just if it is shaped like one and is
one of these words. The parser agrees: a name that is accepted can be declared, and every identifier
in the tree of a text has a name that is accepted. -/
theorem validateName_exact (name : String) :
    (validateName name = .ok () ↔
      Word.IsShaped name ∧ name ≠ "_" ∧ Text.lowercase name ∉ Word.reserved) ∧
    (∀ word, validateName name = .error (.reserved word) ↔
      word = name ∧ Word.IsShaped name ∧ Text.lowercase name ∈ Word.reserved) ∧
    (validateName name = .ok () → (parse ("var " ++ name ++ " = 1;")).errors = [] ∧
      (evaluate (parse ("var " ++ name ++ " = 1;")).program).declared.map (·.name) = [name]) ∧
    ∀ source, ∀ i ∈ (Node.program (parse source).program).names, validateName i.name = .ok () := by
  refine ⟨?_, fun word => ?_, parse_declaration, fun _ _ => validateName_of_mem_names⟩
  · rw [validateName_eq, ← Word.isReserved_iff, ← and_assoc]
    split
    · simp [*]
    · split
      · simp [*]
      · rename_i hname
        exact iff_of_false (by simp) fun h => hname h.1
  · rw [validateName_eq, ← Word.isReserved_iff]
    split
    · rename_i hreserved
      simp [hreserved, Word.isShaped_of_isReserved hreserved, eq_comm]
    · split <;> simp [*]

/-- A name in letters of both cases, and the names of a text with a clause and a macro. -/
theorem validateName_exact_mixed :
    validateName "Pay_Code2" = .ok () ∧ (parse ("var " ++ "Pay_Code2" ++ " = 1;")).errors = [] ∧
      ∃ i ∈ (Node.program (parse "over a alias b; $c()$").program).names,
        i.name = "c" ∧ validateName i.name = .ok () := by
  obtain ⟨-, -, hdeclared, hnames⟩ := validateName_exact "Pay_Code2"
  -- at once, for the kernel computes the names of the catalog anew in each proof
  obtain ⟨hok, i, hi, hname⟩ : validateName "Pay_Code2" = .ok () ∧
      ∃ i ∈ (Node.program (parse "over a alias b; $c()$").program).names, i.name = "c" := by
    decide +kernel
  exact ⟨hok, (hdeclared hok).1, i, hi, hname, hnames _ i hi⟩

end PayFormula
