import PayFormula.Proofs.Grammar.Depth
import PayFormula.Proofs.Grammar.RoundTrip
import PayFormula.Proofs.Grammar.Unplaced

/-!
# The deepest trees

The bound on all expressions is met. A tree that meets it with one level more
is built from one that meets it: it becomes the value of a binding in an argument,
and as many operators as there are levels behind the call are chained onto it.
The text for it is what is printed for the tree.
-/
namespace PayFormula

namespace Grammar

/-- As many operators as there are levels can be chained onto an operand. -/
theorem exists_chain_deepest (levels : Nat) (left : Expr) (path : List Nat) :
    ∃ toks e path', Legible toks ∧
      (∀ next : Token, ¬ .lowest < Precedence.of next.kind →
        Chain Gaps.none levels .lowest left toks next e) ∧
      (Node.expr e).exprsAlong path' = (Node.expr left).exprsAlong path + levels := by
  induction levels generalizing left path with
  | zero => exact ⟨[], left, path, .nil, fun next hnext => .intro hnext, rfl⟩
  | succ levels ih =>
    let t := unplacedKeyword .inWord
    let l := unplacedMark .lbracket
    let r := unplacedMark .rbracket
    obtain ⟨toks, e, path', hl, hchain, hpath⟩ := ih (.member t left (.list ⟨l, [], r⟩)) (0 :: path)
    refine ⟨[t, l, r] ++ toks, e, path', by simp [t, l, r, hl], fun next hnext => .inr ?_, ?_⟩
    · exact .intro (.memberList rfl (by decide) (.intro rfl .nil rfl)) (hchain next hnext)
    · have hleft : (Node.expr (.member t left (.list ⟨l, [], r⟩))).children[0]? =
          some (Node.expr left) := rfl
      rw [hpath, Node.exprsAlong_cons hleft]
      simp only [Node.isExpr, Bool.toNat_true]
      omega

/-- For every number of levels but none there is an expression that meets the bound. -/
theorem exists_expression_deepest (levels : Nat) :
    ∃ toks e path, Legible toks ∧
      (∀ next : Token, ¬ .lowest < Precedence.of next.kind →
        Expression Gaps.none (levels + 1) .lowest toks next e) ∧
      (Node.expr e).exprsAlong path = mostExprs (levels + 1) := by
  let l := unplacedMark .lparen
  let r := unplacedMark .rparen
  induction levels with
  | zero =>
    exact ⟨[l, r], .paren l ⟨[], .blank l⟩ r, [0, 0], by simp [l, r],
      fun next hnext => Primary.expression (.unit rfl rfl) hnext, rfl⟩
  | succ levels ih =>
    obtain ⟨toks, value, path, hl, hvalue, hpath⟩ := ih
    let f := unplacedToken .builtin "accrued"
    let v := unplacedKeyword .varWord
    let x := unplacedToken .ident "x"
    let eq := unplacedMark .eq
    let semicolon := unplacedMark .semicolon
    -- at once, for the kernel computes the names of the catalog anew in each proof
    obtain ⟨hbuiltin, hname⟩ : Catalog.isBuiltin "accrued" ∧ validateName "x" = .ok () := by
      decide +kernel
    have hf : f.piece.IsRead := isRead_builtin hbuiltin
    have hread : x.piece.IsRead := isRead_name hname
    have hx : x.IsName :=
      Token.isName_of_text rfl (of_validateName hname).1 (of_validateName hname).2
    let b : Binding := ⟨v, ⟨x⟩, value, semicolon⟩
    have hbound :
        Bound (Expression Gaps.none (levels + 1)) (v :: x :: eq :: toks ++ [semicolon]) b :=
      .intro rfl hx rfl (hvalue semicolon (by decide)) rfl
    have hname : Expression Gaps.none (levels + 1) .lowest [x] r (.ident ⟨x⟩) :=
      Primary.expression (.ident hx) (by decide)
    have hblock := Blocks.intro (.cons hbound .nil) hname
    have hargument : Argument (Gaps.none (levels + 1)) (Expression Gaps.none (levels + 1))
        (v :: x :: eq :: toks ++ [semicolon] ++ [] ++ [x]) r (.block ⟨[b], .ident ⟨x⟩⟩) :=
      .block hblock (by simp)
    let call : Expr := .call f l [.block ⟨[b], .ident ⟨x⟩⟩] r
    have hcall (next : Token) : Primary (Gaps.none (levels + 1)) (Expression Gaps.none (levels + 1))
        (f :: l :: (v :: x :: eq :: toks ++ [semicolon] ++ [] ++ [x]) ++ [r]) next call :=
      .call rfl rfl (by simp [v, unplacedKeyword, unplacedToken]) (.last hargument) rfl
    have hdepth :
        (Node.expr call).exprsAlong (0 :: 0 :: 1 :: path) = mostExprs (levels + 1) + 2 := by
      have hargument' : (Node.expr call).children[0]? =
          some (Node.expr (.block ⟨[b], .ident ⟨x⟩⟩)) := rfl
      have hbinding : (Node.expr (.block ⟨[b], .ident ⟨x⟩⟩)).children[0]? =
          some (Node.binding b) := rfl
      have hvalue : (Node.binding b).children[1]? = some (Node.expr value) := rfl
      rw [Node.exprsAlong_cons hargument', Node.exprsAlong_cons hbinding,
        Node.exprsAlong_cons hvalue, hpath]
      simp only [Node.isExpr, Bool.toNat_true, Bool.toNat_false]
      omega
    obtain ⟨toks', e, path', hl', hchain, hpath'⟩ :=
      exists_chain_deepest (levels + 1) call (0 :: 0 :: 1 :: path)
    refine ⟨_, e, path', ?_, fun next hnext => .intro (hcall _) (hchain next hnext), ?_⟩
    · simp [l, r, v, eq, semicolon, hf, hread, hl, hl']
    · rw [hpath', hdepth]
      rfl

/-- The bound on all expressions is met by some text without errors. -/
theorem exists_parse_deepest :
    ∃ source path, (parse source).errors = [] ∧
      (Node.program (parse source).program).exprsAlong path = mostExprs nestingLimit := by
  have hlimit : nestingLimit = 127 + 1 := rfl
  obtain ⟨toks, e, path, hl, he, hpath⟩ := exists_expression_deepest 127
  rw [← hlimit] at he hpath
  let eof := unplacedToken .eof ""
  have hexpression := he eof (by decide)
  have hbetween : Between toks toks [] := by
    have hfilter :=
      ((expression_solid repeats_none.solid nestingLimit).solid hexpression).filter_eq []
    rw [List.filter_nil, List.append_nil] at hfilter
    exact ⟨toks, (List.append_nil _).symm, hfilter⟩
  have hlines : Lines False Gaps.none eof toks [.expression e] :=
    .expression hbetween hexpression .nil
  obtain ⟨printed, hprinted⟩ :
      ∃ printed, printed = "\n".intercalate (Program.renderStatements [.expression e]) := ⟨_, rfl⟩
  obtain ⟨herrors, hplain, -⟩ := parse_lines_printed hlines hl hprinted
  refine ⟨printed, 0 :: path, herrors, ?_⟩
  obtain ⟨s, hs, hsplain⟩ := List.map_eq_singleton_iff.mp hplain
  have hchild : (Node.expr e).plain = s.node.plain := by
    cases s with
    | expression e' => exact congrArg Node.expr (Statement.expression.inj hsplain).symm
    | binding | lineComment | blockComment => cases hsplain
  have hfirst : (Node.program (parse printed).program).children[0]? = some s.node := by
    rw [Node.children, hs]
    rfl
  rw [Node.exprsAlong_cons hfirst, ← Node.exprsAlong_plain s.node, ← hchild,
    Node.exprsAlong_plain, hpath]
  exact Nat.zero_add _

end Grammar

open Grammar

theorem parse_ofList (text : List Char) :
    parse (String.ofList text) =
      parseTokens (Token.ofChars text) (.endOf (LineIndex.ofChars text)) := by
  rw [parse, tokenize, LineIndex.ofString, String.toList_ofList]

/-- In the tree of every text, no more expressions than the limit stand one inside the other if the
free ones are not counted. All of them are at most quadratic in the limit, and some text without
errors has as many. -/
theorem parse_depth_sharp (source : String) (path : List Nat) :
    (Node.program (parse source).program).exprsAlong path ≤
        nestingLimit + (Node.program (parse source).program).freeAlong path ∧
      (Node.program (parse source).program).exprsAlong path ≤
        nestingLimit * (nestingLimit + 3) / 2 ∧
      ∃ deepest way, (parse deepest).errors = [] ∧
        (Node.program (parse deepest).program).exprsAlong way =
          nestingLimit * (nestingLimit + 3) / 2 := by
  obtain ⟨hlevels, htotal⟩ := parse_deep source path
  rw [← mostExprs_eq]
  exact ⟨hlevels, htotal, exists_parse_deepest⟩

/-- Parentheses up to the limit may still be the left operand of a sum. -/
theorem parse_depth_exceeds_nestingLimit :
    ¬ ∀ source path, (Node.program (parse source).program).exprsAlong path ≤ nestingLimit := by
  intro h
  have hle := h (String.ofList (List.replicate 127 '(' ++ ['1'] ++ List.replicate 127 ')' ++
    ['+', '1'])) (List.replicate 256 0)
  rw [parse_ofList] at hle
  revert hle
  decide +kernel

end PayFormula
